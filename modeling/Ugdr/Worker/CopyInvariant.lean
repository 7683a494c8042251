import Ugdr.Worker.CopyProgress

/-! # Parents and the copy backend

What holds of the requests and completions of every parent while it is copied, and
what that says when the responder answers the parent.
-/

namespace Ugdr.Worker

open Ugdr.Queue Ugdr.Control
open Ugdr.Control.QpService (WorkerQpView)

variable {permitted : World → Event → Prop} {world next : World}

/-! ## What a success says -/

/-- The requests of the parent were handed to the backend, and each was completed once,
with success. -/
structure CopiedOnce (requestId : Nat) (progress : Progress) (parent : PendingSend) :
    Prop where
  issued : progress.parent = some parent
  indices : progress.accepted.map BackendRequest.payloadIndex = List.range parent.payloadCount
  lengths : (progress.accepted.map BackendRequest.payloadLength).sum = parent.totalLength
  popped : ∀ index < parent.payloadCount,
    (progress.popped.filter fun completion => completion.payloadIndex = index) =
      [⟨requestId, index, .success⟩]

/-- Every payload of the parent was copied. -/
def Copied (requestId : Nat) (progress : Progress) : Prop :=
  ∃ parent, progress.parent = some parent ∧
    ∀ index < parent.payloadCount, ⟨requestId, index, .success⟩ ∈ progress.popped

theorem CopiedOnce.copied {requestId : Nat} {progress : Progress} {parent : PendingSend}
    (copied : CopiedOnce requestId progress parent) : Copied requestId progress := by
  refine ⟨parent, copied.issued, fun index below => ?_⟩
  have member : ⟨requestId, index, .success⟩ ∈
      progress.popped.filter fun completion => completion.payloadIndex = index := by
    rw [copied.popped index below]
    exact List.mem_singleton_self _
  exact List.mem_of_mem_filter member

/-- What came before the responder answered with success, before a receive completion
was published, and before the requester consumed a success. -/
structure CopiedFirst (before : List Event) (event : Event) : Prop where
  responded : ∀ response, event = .responded response → response.result = .success →
    ∃ parent, CopiedOnce response.parentRequestId
      (progress response.parentRequestId before) parent
  received : ∀ requestId entry, event = .received requestId entry →
    Copied requestId (progress requestId before)
  consumed : ∀ response answer, event = .consumed response (some answer) →
    response.result = .success →
      Copied response.parentRequestId (progress response.parentRequestId before)

def NoPrematureSuccess (trace : List Event) : Prop :=
  Trace.Every CopiedFirst trace

/-- The events that report the end of a parent. -/
def Event.reports : Event → Bool
  | .responded _ => true
  | .received _ _ => true
  | .consumed _ _ => true
  | _ => false

theorem CopiedFirst.of_silent {before : List Event} {event : Event}
    (silent : event.reports = false) : CopiedFirst before event := by
  constructor
  · rintro response rfl
    cases silent
  · rintro requestId entry rfl
    cases silent
  · rintro response answer rfl
    cases silent

/-! ## Conditions -/

namespace World

/-- The responses on their way to the requester. -/
def returning (world : World) : List ResponseDatagram :=
  world.requester.pendingResponse.toList ++ world.transport.responses

/-- The parents that the responder has not looked up. -/
def undecided (world : World) : List PendingSend :=
  world.issued.drop world.decisions.length

end World

/-- Nothing of an earlier parent is in flight under the id. -/
structure Quiet (world : World) (requestId : Nat) : Prop where
  fresh : FreshId world requestId
  returning : ∀ response ∈ world.returning, response.parentRequestId ≠ requestId

instance (world : World) (requestId : Nat) : Decidable (Quiet world requestId) :=
  decidable_of_iff
    (FreshId world requestId ∧
      ∀ response ∈ world.returning, response.parentRequestId ≠ requestId)
    ⟨fun quiet => ⟨quiet.1, quiet.2⟩, fun quiet => ⟨quiet.fresh, quiet.returning⟩⟩

/-- The two workers are alone on the transport and connected, an id is issued again only
when nothing is in flight under it, and the backend completes only requests that it has
accepted since the id was last issued. -/
def Serving (world : World) : Event → Prop
  | .issued _ view _ parent =>
      view.peerQpNum = world.responder.qpNum ∧ Quiet world parent.parentRequestId
  | .popped completion =>
      ∃ request ∈ (progress completion.parentRequestId world.trace).accepted,
        request.payloadIndex = completion.payloadIndex
  | .delivered _ => False
  | .taken _ => False
  | _ => True

theorem Serving.paired {event : Event} (serving : Serving world event) :
    Paired world event := by
  cases event with
  | issued => exact ⟨serving.1, serving.2.fresh⟩
  | taken => exact serving
  | _ => trivial

/-! ## Invariant -/

/-- The state kept for a parent matches the progress of the parent. -/
structure Submitted (payloadBytes : Nat) (inflight : ResponderInflight)
    (parent : PendingSend) (progress : Progress) : Prop where
  last : progress.parent = some parent
  nonempty : parent.totalLength ≠ 0
  payloadCount : inflight.payloadCount = parent.payloadCount
  created : progress.created =
    (parentRequests payloadBytes parent inflight.targetDaemonAddress).take
      inflight.nextPayloadIndex
  recorded : Recorded inflight progress.popped

structure Copies (world : World) : Prop where
  submitted : ∀ requestId inflight,
    world.responder.responderInflight requestId = some inflight →
      ∃ parent, Submitted world.requester.payloadBytes inflight parent
        (progress requestId world.trace)
  accepted : ∀ requestId, (progress requestId world.trace).created =
    (progress requestId world.trace).accepted ++
      world.responder.pendingBackendRequests.filter
        fun request => request.parentRequestId = requestId
  undecided : ∀ parent ∈ world.undecided,
    (progress parent.parentRequestId world.trace).created = []
  popped : ∀ requestId, ∀ completion ∈ (progress requestId world.trace).popped,
    ∃ request ∈ (progress requestId world.trace).accepted,
      request.payloadIndex = completion.payloadIndex
  pending : ∀ request ∈ world.responder.pendingBackendRequests,
    world.responder.responderInflight request.parentRequestId ≠ none
  returning : ∀ response ∈ world.returning, response.result = .success →
    Copied response.parentRequestId (progress response.parentRequestId world.trace)

/-- The parents that are not looked up are those waiting in the position. -/
theorem Position.Describes.undecided {position : Position}
    (describes : position.Describes world) : world.undecided = position.waiting := by
  have length : world.decisions.length =
      (position.finished.map Prod.fst ++ position.current.toList.map Current.parent).length := by
    rw [describes.decisions]
    simp [Position.decided]
  rw [World.undecided, describes.issued, length, Position.opened, ← List.append_assoc,
    List.drop_left]

/-- A parent that is issued is not looked up yet. -/
theorem Position.Describes.undecided_concat {position : Position}
    (describes : position.Describes world) (parent : PendingSend)
    (issued : next.issued = world.issued ++ [parent])
    (decisions : next.decisions = world.decisions) :
    next.undecided = world.undecided ++ [parent] := by
  have short : world.decisions.length ≤ world.issued.length := by
    rw [describes.decisions, describes.issued]
    simp [Position.decided, Position.opened]
  rw [World.undecided, issued, decisions, List.drop_append_of_le_length short, World.undecided]

/-- The last parent of an id among those not disposed of is the last one issued. -/
theorem Position.Describes.progress_of_opened {position : Position}
    (describes : position.Describes world) {parent : PendingSend}
    (member : parent ∈ position.opened) :
    (progress parent.parentRequestId world.trace).parent = some parent := by
  have issued : world.trace.filterMap Event.issued? =
      position.finished.map Prod.fst ++ position.opened := describes.issued
  have unique : ∀ other ∈ position.opened.reverse,
      other.parentRequestId = parent.parentRequestId → other = parent := by
    intro other listed same
    exact List.inj_on_of_nodup_map describes.distinct (List.mem_reverse.mp listed) member same
  rw [progress_parent, issued, List.reverse_append, List.find?_append]
  cases found : position.opened.reverse.find?
      (fun other => other.parentRequestId = parent.parentRequestId) with
  | none =>
      have absent := List.find?_eq_none.mp found parent (List.mem_reverse.mpr member)
      simp at absent
  | some other =>
      have same := List.find?_some found
      rw [unique other (List.mem_of_find?_eq_some found) (by simpa using same)]
      rfl

theorem mem_issued_of_progress {requestId : Nat} {parent : PendingSend}
    (last : (progress requestId world.trace).parent = some parent) :
    parent ∈ world.issued ∧ parent.parentRequestId = requestId := by
  rw [progress_parent] at last
  have own := List.find?_some last
  exact ⟨List.mem_reverse.mp (List.mem_of_find?_eq_some last), by simpa using own⟩

namespace Copies

/-! ## A parent whose payloads are terminal -/

/-- A parent that can be answered has no request left to hand over, and all of its
requests are accepted. -/
theorem handed (copies : Copies world) (accounted : StreamAccounted world) {requestId : Nat}
    {inflight : ResponderInflight} {parent : PendingSend}
    (found : Submitted world.requester.payloadBytes inflight parent
      (progress requestId world.trace))
    (submitted : inflight.nextPayloadIndex = inflight.payloadCount)
    (terminal : inflight.terminalCount = inflight.payloadCount) :
    (progress requestId world.trace).accepted =
        parentRequests world.requester.payloadBytes parent inflight.targetDaemonAddress ∧
      (world.responder.pendingBackendRequests.filter
        fun request => request.parentRequestId = requestId) = [] := by
  have built := accounted.built parent (mem_issued_of_progress found.last).1
  have tiles := tiles_of_built built found.nonempty inflight.targetDaemonAddress
  have count := built.payloadCount_ne_zero found.nonempty
  have length : (parentRequests world.requester.payloadBytes parent
      inflight.targetDaemonAddress).length = parent.payloadCount := by
    rw [← List.length_map (f := BackendRequest.payloadIndex), tiles.indices,
      List.length_range]
  have split := copies.accepted requestId
  rw [found.created, submitted, found.payloadCount, ← length, List.take_length] at split
  -- The completion of the last payload is one of an accepted request.
  have last := found.recorded.all_popped terminal
    (show parent.payloadCount - 1 < inflight.payloadCount by
      rw [found.payloadCount]
      omega)
  obtain ⟨completion, member, index⟩ := List.mem_map.mp last
  obtain ⟨request, accepted, same⟩ := copies.popped requestId completion member
  have numbered : (progress requestId world.trace).accepted.map
      BackendRequest.payloadIndex <+: List.range parent.payloadCount := by
    rw [← tiles.indices, split, List.map_append]
    exact List.prefix_append _ _
  have reached : parent.payloadCount ≤ (progress requestId world.trace).accepted.length := by
    have listed : request.payloadIndex ∈ (progress requestId world.trace).accepted.map
        BackendRequest.payloadIndex := List.mem_map_of_mem accepted
    rw [List.prefix_iff_eq_take.mp numbered, List.length_map, List.take_range,
      List.mem_range] at listed
    omega
  have rest : (world.responder.pendingBackendRequests.filter
      fun request => request.parentRequestId = requestId) = [] := by
    have total := congrArg List.length split
    rw [length, List.length_append] at total
    exact List.eq_nil_of_length_eq_zero (by omega)
  rw [rest, List.append_nil] at split
  exact ⟨split.symm, rest⟩

/-- A parent that is answered with success was copied. -/
theorem copiedOnce (copies : Copies world) (accounted : StreamAccounted world)
    {requestId : Nat} {inflight : ResponderInflight} {parent : PendingSend}
    (found : Submitted world.requester.payloadBytes inflight parent
      (progress requestId world.trace))
    (submitted : inflight.nextPayloadIndex = inflight.payloadCount)
    (terminal : inflight.terminalCount = inflight.payloadCount)
    (success : inflight.result = .success) :
    CopiedOnce requestId (progress requestId world.trace) parent := by
  obtain ⟨accepted, -⟩ := copies.handed accounted found submitted terminal
  have built := accounted.built parent (mem_issued_of_progress found.last).1
  have tiles := tiles_of_built built found.nonempty inflight.targetDaemonAddress
  obtain ⟨clean, results⟩ := ResponderInflight.success_of_result success
  obtain ⟨distinct, recorded⟩ := found.recorded.clean clean
  refine ⟨found.last, ?_, ?_, fun index below => ?_⟩
  · rw [accepted]
    exact tiles.indices
  · rw [accepted]
    exact tiles.lengths
  · obtain ⟨completion, member, same⟩ := List.mem_map.mp
      (found.recorded.all_popped terminal (by rw [found.payloadCount]; exact below))
    have own := progress_popped_id requestId world.trace completion member
    have result := results _ (List.mem_of_getElem? (recorded completion member))
    have unique : ∀ other ∈ (progress requestId world.trace).popped,
        other.payloadIndex = index → other = completion := by
      intro other listed equal
      exact List.inj_on_of_nodup_map distinct listed member (equal.trans same.symm)
    have single : ((progress requestId world.trace).popped.filter
        fun other => other.payloadIndex = index) = [completion] := by
      have once : (progress requestId world.trace).popped.Nodup := distinct.of_map _
      refine List.Perm.eq_singleton ((List.perm_ext_iff_of_nodup (once.filter _)
        (List.nodup_singleton _)).mpr fun other => ?_)
      rw [List.mem_filter, List.mem_singleton]
      refine ⟨fun ⟨listed, equal⟩ => unique other listed (by simpa using equal), ?_⟩
      rintro rfl
      exact ⟨member, by simpa using same⟩
    rw [single]
    cases completion
    simp only at own result same
    rw [own, result, same]

/-! ## Steps -/

/-- A step that records no progress. -/
theorem of_same_progress (copies : Copies world)
    (same : ∀ requestId, progress requestId next.trace = progress requestId world.trace)
    (pending : next.responder.pendingBackendRequests = world.responder.pendingBackendRequests)
    (submitted : ∀ requestId inflight,
      next.responder.responderInflight requestId = some inflight →
        ∃ parent, Submitted next.requester.payloadBytes inflight parent
          (progress requestId world.trace))
    (kept : ∀ request ∈ world.responder.pendingBackendRequests,
      next.responder.responderInflight request.parentRequestId ≠ none)
    (undecided : next.undecided ⊆ world.undecided)
    (returning : ∀ response ∈ next.returning, response.result = .success →
      Copied response.parentRequestId (progress response.parentRequestId world.trace)) :
    Copies next := by
  constructor
  · simpa only [same] using submitted
  · simpa only [same, pending] using copies.accepted
  · intro parent member
    rw [same]
    exact copies.undecided parent (undecided member)
  · simpa only [same] using copies.popped
  · rw [pending]
    exact kept
  · simpa only [same] using returning

theorem of_same_responder (copies : Copies world)
    (same : ∀ requestId, progress requestId next.trace = progress requestId world.trace)
    (payloadBytes : next.requester.payloadBytes = world.requester.payloadBytes)
    (pending : next.responder.pendingBackendRequests = world.responder.pendingBackendRequests)
    (inflight : next.responder.responderInflight = world.responder.responderInflight)
    (undecided : next.undecided ⊆ world.undecided)
    (returning : ∀ response ∈ next.returning, response.result = .success →
      response ∈ world.returning) : Copies next := by
  refine copies.of_same_progress same pending ?_ ?_ undecided ?_
  · rw [payloadBytes, inflight]
    exact copies.submitted
  · rw [inflight]
    exact copies.pending
  · exact fun response member success =>
      copies.returning response (returning response member success) success

theorem sender (copies : Copies world) (agreed : Agreed world)
    (serving : ∀ world event, permitted world event → Serving world event)
    (transition : SenderTransition permitted world next) : Copies next := by
  have frame := transition.responderFrame
  have decisions : next.decisions = world.decisions :=
    frame.filterMap fun event own => by cases event <;> first | rfl | cases own
  have keeps : next.issued = world.issued → next.undecided ⊆ world.undecided := by
    intro issued
    rw [World.undecided, issued, decisions]
    exact List.Subset.refl _
  cases transition with
  | post | pollSend | foreignSend | collide | fail | push =>
      exact copies.of_same_responder (by simp) rfl rfl rfl
        (keeps (by simp [World.issued])) fun _ member _ => member
  | pushLast parent pending =>
      obtain ⟨-, wqe, rest, items, -⟩ := agreed.accounted.queue.busy parent pending
      refine copies.of_same_responder (fun requestId => ?_) rfl rfl rfl
        (keeps (by simp [World.issued, items])) fun _ member _ => member
      simp [items, progress_append]
  | loadResponse response rest idle responses =>
      refine copies.of_same_responder (fun _ => rfl) rfl rfl rfl (keeps rfl) ?_
      intro other member _
      simpa [World.returning, idle, responses] using member
  | ignore response pending =>
      refine copies.of_same_responder (by simp) rfl rfl rfl (keeps (by simp [World.issued])) ?_
      intro other member _
      exact List.mem_append_right _ (by simpa [World.returning] using member)
  | answer response inflight answer pending =>
      refine copies.of_same_responder (by simp) rfl rfl rfl (keeps (by simp [World.issued])) ?_
      intro other member _
      exact List.mem_append_right _ (by simpa [World.returning] using member)
  | issue service view wqe rest gathered parent idle peeked items inspected built qpNum absent
      allowed =>
      obtain ⟨position, describes⟩ := agreed.position
      obtain ⟨-, fresh, quiet⟩ := serving _ _ allowed
      have own : progress parent.parentRequestId
          (world.trace ++ [.issued service view wqe parent]) = { parent := some parent } := by
        simp
      have other : ∀ requestId, requestId ≠ parent.parentRequestId →
          progress requestId (world.trace ++ [.issued service view wqe parent]) =
            progress requestId world.trace := by
        intro requestId different
        simp [Ne.symm different]
      constructor
      · intro requestId inflight found
        have different : requestId ≠ parent.parentRequestId := by
          rintro rfl
          have same := found
          rw [fresh.responder] at same
          cases same
        rw [other requestId different]
        exact copies.submitted requestId inflight found
      · intro requestId
        by_cases same : requestId = parent.parentRequestId
        · rw [same, own]
          refine (List.filter_eq_nil_iff.mpr fun request member => ?_).symm
          intro equal
          have kept := copies.pending request member
          rw [of_decide_eq_true equal, fresh.responder] at kept
          exact kept rfl
        · rw [other requestId same]
          exact copies.accepted requestId
      · intro waits member
        rw [describes.undecided_concat parent (by simp [World.issued]) decisions] at member
        have listed : waits ∈ world.undecided ∨ waits = parent := by simpa using member
        by_cases same : waits.parentRequestId = parent.parentRequestId
        · rw [same, own]
        · rw [other _ same]
          refine copies.undecided waits (listed.resolve_right ?_)
          rintro rfl
          exact same rfl
      · intro requestId
        by_cases same : requestId = parent.parentRequestId
        · rw [same, own]
          nofun
        · rw [other requestId same]
          exact copies.popped requestId
      · exact copies.pending
      · intro response member success
        rw [other _ (quiet response member)]
        exact copies.returning response member success

/-- A backend request is made of the next datagram of the parent worked on. -/
theorem accept (copies : Copies world) (agreed : Agreed world) {request : RequestDatagram}
    {inflight : ResponderInflight} {consumed : Bool}
    (pending : world.responder.pendingRequest = some request)
    (found : world.responder.responderInflight request.parentRequestId = some inflight)
    (trace : next.trace = world.trace ++
      [.disposed request
        (.backendRequest (backendRequestOf request inflight.targetDaemonAddress))])
    (payloadBytes : next.requester.payloadBytes = world.requester.payloadBytes)
    (inflights : next.responder.responderInflight =
      Function.update world.responder.responderInflight request.parentRequestId
        (some ({ inflight with receiveConsumed := consumed }.advance request)))
    (pendings : next.responder.pendingBackendRequests =
      world.responder.pendingBackendRequests ++
        [backendRequestOf request inflight.targetDaemonAddress])
    (undecided : next.undecided = world.undecided)
    (returning : next.returning = world.returning) : Copies next := by
  obtain ⟨position, describes⟩ := agreed.position
  obtain ⟨current, target, rest, worked, decided, leaves, nonzero, own, matched, -⟩ :=
    agreed.next_of_found describes pending found
  obtain ⟨parent, submitted⟩ := copies.submitted _ _ found
  have opened : current.parent ∈ position.opened := by simp [Position.opened, worked]
  have last := describes.progress_of_opened opened
  rw [← own, submitted.last] at last
  injection last with last
  obtain ⟨split, -⟩ := describes.current current worked
  have same : ∀ requestId, requestId ≠ request.parentRequestId →
      progress requestId next.trace = progress requestId world.trace := by
    intro requestId different
    rw [trace, progress_concat]
    simp [backendRequestOf, Ne.symm different]
  have grown : progress request.parentRequestId next.trace =
      { progress request.parentRequestId world.trace with
        created := (progress request.parentRequestId world.trace).created ++
          [backendRequestOf request inflight.targetDaemonAddress] } := by
    rw [trace, progress_concat]
    simp [backendRequestOf]
  constructor
  · intro requestId other stored
    rw [inflights] at stored
    rw [payloadBytes]
    by_cases equal : requestId = request.parentRequestId
    · rw [equal, Function.update_self] at stored
      injection stored with stored
      subst stored
      rw [equal, grown]
      refine ⟨parent, submitted.last, submitted.nonempty, submitted.payloadCount, ?_,
        submitted.recorded.congr rfl rfl rfl rfl ?_⟩
      · simp only [submitted.created, ResponderInflight.advance, parentRequests, last, split,
          leaves, matched.nextPayloadIndex]
        simp [List.take_append, List.take_of_length_le]
      · simp only [ResponderInflight.advance]
        split
        · rintro ⟨⟩
        · exact id
    · rw [Function.update_of_ne equal] at stored
      rw [same requestId equal]
      exact copies.submitted requestId other stored
  · intro requestId
    rw [pendings, List.filter_append]
    by_cases equal : requestId = request.parentRequestId
    · rw [equal, grown]
      simp [copies.accepted, backendRequestOf]
    · rw [same requestId equal]
      simp [copies.accepted, backendRequestOf, Ne.symm equal]
  · intro waits member
    rw [undecided] at member
    rw [same]
    · exact copies.undecided waits member
    · intro equal
      rw [describes.undecided] at member
      have unseen := describes.waiting waits member
      rw [equal, found] at unseen
      cases unseen
  · intro requestId
    by_cases equal : requestId = request.parentRequestId
    · rw [equal, grown]
      exact copies.popped request.parentRequestId
    · rw [same requestId equal]
      exact copies.popped requestId
  · intro other member
    rw [inflights]
    by_cases equal : other.parentRequestId = request.parentRequestId
    · rw [equal, Function.update_self]
      exact Option.some_ne_none _
    · rw [Function.update_of_ne equal]
      rw [pendings] at member
      refine copies.pending other ((List.mem_append.mp member).resolve_right fun member => ?_)
      rw [List.mem_singleton.mp member] at equal
      exact equal rfl
  · intro response member success
    rw [returning] at member
    by_cases equal : response.parentRequestId = request.parentRequestId
    · have copied := copies.returning response member success
      rw [equal] at copied ⊢
      rw [grown]
      exact copied
    · rw [same _ equal]
      exact copies.returning response member success

/-- A completion is popped, for a parent that is in flight or not. -/
theorem pop (copies : Copies world) {completion : BackendCompletion}
    (known : ∃ request ∈ (progress completion.parentRequestId world.trace).accepted,
      request.payloadIndex = completion.payloadIndex)
    (trace : next.trace = world.trace ++ [.popped completion])
    (payloadBytes : next.requester.payloadBytes = world.requester.payloadBytes)
    (other : ∀ requestId, requestId ≠ completion.parentRequestId →
      next.responder.responderInflight requestId =
        world.responder.responderInflight requestId)
    (own : next.responder.responderInflight completion.parentRequestId =
      (world.responder.responderInflight completion.parentRequestId).map
        fun inflight => inflight.record completion)
    (pendings : next.responder.pendingBackendRequests =
      world.responder.pendingBackendRequests)
    (undecided : next.undecided = world.undecided)
    (returning : next.returning = world.returning) : Copies next := by
  have same : ∀ requestId, requestId ≠ completion.parentRequestId →
      progress requestId next.trace = progress requestId world.trace := by
    intro requestId different
    rw [trace, progress_concat]
    simp [Ne.symm different]
  have grown : progress completion.parentRequestId next.trace =
      { progress completion.parentRequestId world.trace with
        popped := (progress completion.parentRequestId world.trace).popped ++
          [completion] } := by
    rw [trace, progress_concat]
    simp
  constructor
  · intro requestId stored found
    rw [payloadBytes]
    by_cases equal : requestId = completion.parentRequestId
    · rw [equal, own] at found
      obtain ⟨inflight, before, rfl⟩ := Option.map_eq_some_iff.mp found
      obtain ⟨parent, submitted⟩ := copies.submitted _ _ before
      have recorded := submitted.recorded.record completion
      rw [equal, grown]
      refine ⟨parent, submitted.last, submitted.nonempty, ?_, ?_, recorded⟩
      · rw [ResponderInflight.record]
        split <;> exact submitted.payloadCount
      · rw [ResponderInflight.record]
        split <;> exact submitted.created
    · rw [same requestId equal]
      rw [other requestId equal] at found
      exact copies.submitted requestId stored found
  · intro requestId
    rw [pendings]
    by_cases equal : requestId = completion.parentRequestId
    · rw [equal, grown]
      exact copies.accepted completion.parentRequestId
    · rw [same requestId equal]
      exact copies.accepted requestId
  · intro waits member
    rw [undecided] at member
    have empty := copies.undecided waits member
    by_cases equal : waits.parentRequestId = completion.parentRequestId
    · rw [equal] at empty ⊢
      rw [grown]
      exact empty
    · rw [same _ equal]
      exact empty
  · intro requestId popped member
    by_cases equal : requestId = completion.parentRequestId
    · rw [equal, grown] at member ⊢
      rcases List.mem_append.mp member with member | member
      · exact copies.popped _ popped member
      · rw [List.mem_singleton.mp member]
        exact known
    · rw [same requestId equal] at member ⊢
      exact copies.popped requestId popped member
  · intro request member
    rw [pendings] at member
    have kept := copies.pending request member
    by_cases equal : request.parentRequestId = completion.parentRequestId
    · rw [equal] at kept ⊢
      rw [own]
      simpa using kept
    · rw [other _ equal]
      exact kept
  · intro response member success
    rw [returning] at member
    have copied := copies.returning response member success
    by_cases equal : response.parentRequestId = completion.parentRequestId
    · rw [equal] at copied ⊢
      rw [grown]
      obtain ⟨parent, last, popped⟩ := copied
      exact ⟨parent, last, fun index below => List.mem_append_left _ (popped index below)⟩
    · rw [same _ equal]
      exact copied

/-- The backend accepts the first of the waiting requests. -/
theorem flush (copies : Copies world) {accepted : Nat}
    (trace : next.trace = world.trace ++
      (world.responder.pendingBackendRequests.take accepted).map Event.accepted)
    (payloadBytes : next.requester.payloadBytes = world.requester.payloadBytes)
    (inflight : next.responder.responderInflight = world.responder.responderInflight)
    (pendings : next.responder.pendingBackendRequests =
      world.responder.pendingBackendRequests.drop accepted)
    (undecided : next.undecided = world.undecided)
    (returning : next.returning = world.returning) : Copies next := by
  have grown := fun requestId => progress_accepted requestId world.trace
    (world.responder.pendingBackendRequests.take accepted)
  rw [← trace] at grown
  constructor
  · intro requestId stored found
    rw [inflight] at found
    obtain ⟨parent, submitted⟩ := copies.submitted requestId stored found
    rw [payloadBytes, grown]
    exact ⟨parent, submitted.last, submitted.nonempty, submitted.payloadCount,
      submitted.created, submitted.recorded⟩
  · intro requestId
    rw [grown, pendings, List.append_assoc, ← List.filter_append, List.take_append_drop]
    exact copies.accepted requestId
  · intro waits member
    rw [undecided] at member
    rw [grown]
    exact copies.undecided waits member
  · intro requestId completion member
    rw [grown] at member ⊢
    obtain ⟨request, listed, same⟩ := copies.popped requestId completion member
    exact ⟨request, List.mem_append_left _ listed, same⟩
  · intro request member
    rw [pendings] at member
    rw [inflight]
    exact copies.pending request (List.mem_of_mem_drop member)
  · intro response member success
    rw [returning] at member
    rw [grown]
    exact copies.returning response member success

/-- Nothing has happened yet for the parent that the responder looks up. -/
theorem first (copies : Copies world) (agreed : Agreed world) {request : RequestDatagram}
    (pending : world.responder.pendingRequest = some request)
    (absent : world.responder.responderInflight request.parentRequestId = none)
    (valid : validFirst request = true) (nonempty : request.parentTotalLength ≠ 0)
    (target : Nat) (receive : Option ReceiveWqeHeader) :
    ∃ parent, Submitted world.requester.payloadBytes
      (responderInflightOf request target receive) parent
      (progress request.parentRequestId world.trace) := by
  obtain ⟨position, describes⟩ := agreed.position
  obtain ⟨-, parent, waiting, rest, waits, same, -⟩ :=
    agreed.first_of_absent describes pending absent valid
  have carries := PendingSend.carries_datagram world.requester.payloadBytes parent
  rw [← same] at carries
  have member : parent ∈ position.waiting := by
    rw [waits]
    exact List.mem_cons_self
  have last := describes.progress_of_opened
    (List.mem_append_right (position.current.toList.map Current.parent) member)
  have created := copies.undecided parent (by rwa [describes.undecided])
  rw [← carries.parentRequestId] at last created
  have popped : (progress request.parentRequestId world.trace).popped = [] := by
    have accepted := copies.accepted request.parentRequestId
    rw [created] at accepted
    refine List.eq_nil_iff_forall_not_mem.mpr fun completion listed => ?_
    obtain ⟨other, known, -⟩ := copies.popped _ completion listed
    rw [(List.append_eq_nil_iff.mp accepted.symm).1] at known
    cases known
  refine ⟨parent, last, ?_, carries.payloadCount, ?_, ?_⟩
  · rw [← carries.parentTotalLength]
    exact nonempty
  · rw [created]
    rfl
  · rw [popped]
    exact Recorded.fresh request target receive

theorem undecided_subset (issued : next.issued = world.issued)
    (decided : List (RequestDatagram × Except Errno Nat))
    (decisions : next.decisions = world.decisions ++ decided) :
    next.undecided ⊆ world.undecided := by
  rw [World.undecided, World.undecided, issued, decisions, List.length_append, ← List.drop_drop]
  exact List.drop_subset _ _

theorem responder (copies : Copies world) (agreed : Agreed world)
    (serving : ∀ world event, permitted world event → Serving world event)
    (transition : ResponderTransition permitted world next) : Copies next := by
  have frame := transition.senderFrame
  have issued : next.issued = world.issued :=
    frame.filterMap fun event foreign => by cases event <;> first | rfl | cases foreign
  cases transition with
  | receiveQueue | pollReceive | foreignReceive | loadRequest | dropOrder =>
      refine copies.of_same_responder (by simp) rfl rfl rfl
        (undecided_subset issued [] (by simp [World.decisions]))
        fun _ member _ => member
  | reject start request result disposal resolution pending reason =>
      refine copies.of_same_responder (fun requestId => ?_) rfl rfl rfl ?_ ?_
      · cases reason <;> simp [progress_append]
      · cases reason with
        | target | first =>
            exact undecided_subset issued []
              (by simp [World.decisions, List.filterMap_cons])
        | access service view =>
            exact undecided_subset issued _ (by simp [World.decisions, List.filterMap_cons]; rfl)
      · intro response member success
        rw [World.returning, ← List.append_assoc] at member
        refine (List.mem_append.mp member).resolve_right fun last => ?_
        rw [List.mem_singleton.mp last] at success
        cases reason <;> cases success
  | admitted service view request target receive receiveQueue pending addressed absent valid
      resolved =>
      have nonempty := resolveKey_length_ne_zero resolved
      refine copies.of_same_progress (by simp) rfl ?_ ?_
        (undecided_subset issued _ (by simp [World.decisions]; rfl)) copies.returning
      · intro requestId inflight found
        by_cases equal : requestId = request.parentRequestId
        · subst equal
          simp only [Function.update_self, Option.some.injEq] at found
          subst found
          exact copies.first agreed pending absent valid nonempty target receive
        · simp only [Function.update_of_ne equal] at found
          exact copies.submitted requestId inflight found
      · intro other member
        have kept := copies.pending other member
        dsimp only
        rw [Function.update_of_ne]
        · exact kept
        · intro equal
          rw [equal] at kept
          exact kept absent
  | invalidPayload request inflight pending addressed found invalid =>
      obtain ⟨position, describes⟩ := agreed.position
      obtain ⟨-, -, -, -, -, -, -, -, -, valid⟩ := agreed.next_of_found describes pending found
      rw [invalid] at valid
      cases valid
  | zeroPayload request inflight consumed receiveQueue pending found valid zero =>
      refine copies.of_same_progress (by simp) rfl ?_ ?_
        (undecided_subset issued [] (by simp [World.decisions])) copies.returning
      · intro requestId other stored
        by_cases equal : requestId = request.parentRequestId
        · subst equal
          simp only [LoopWorker.setResponderInflight, Function.update_self,
            Option.some.injEq] at stored
          subst stored
          obtain ⟨parent, submitted⟩ := copies.submitted _ _ found
          exact ⟨parent, submitted.last, submitted.nonempty, submitted.payloadCount,
            submitted.created, submitted.recorded.congr rfl rfl rfl rfl id⟩
        · simp only [LoopWorker.setResponderInflight, Function.update_of_ne equal] at stored
          exact copies.submitted requestId other stored
      · intro other member
        have kept := copies.pending other member
        by_cases equal : other.parentRequestId = request.parentRequestId
        · simp [LoopWorker.setResponderInflight, equal]
        · simpa [LoopWorker.setResponderInflight, Function.update_of_ne equal] using kept
  | accept request inflight consumed receiveQueue pending found valid nonzero =>
      refine copies.accept agreed pending found rfl rfl rfl rfl ?_ rfl
      simp [World.undecided, World.issued, World.decisions]
  | flush accepted =>
      refine copies.flush rfl rfl rfl rfl ?_ rfl
      rw [World.undecided, issued, World.undecided, World.decisions, List.filterMap_append,
        filterMap_accepted fun _ => rfl, List.append_nil, World.decisions]
  | popUnknown start completion earlier trace absent allowed =>
      have known := serving _ _ allowed
      simp only [Serving] at known
      rw [← progress_accepted_of_popped _ start.trace earlier, ← trace] at known
      refine copies.pop known rfl rfl (fun _ _ => rfl) ?_ rfl ?_ rfl
      · simp [absent]
      · simp [World.undecided, World.issued, World.decisions]
  | pop start completion earlier inflight trace found allowed =>
      have known := serving _ _ allowed
      simp only [Serving] at known
      rw [← progress_accepted_of_popped _ start.trace earlier, ← trace] at known
      refine copies.pop known rfl rfl (fun requestId different => ?_) ?_ rfl ?_ rfl
      · simp [LoopWorker.setResponderInflight, Function.update_of_ne different]
      · simp [LoopWorker.setResponderInflight, found]
      · simp [World.undecided, World.issued, World.decisions]
  | retire view requestId order inflight receive head found submitted terminal receives =>
      obtain ⟨parent, matched⟩ := copies.submitted _ _ found
      obtain ⟨-, left⟩ := copies.handed agreed.accounted.stream matched submitted terminal
      refine copies.of_same_progress (fun _ => ?_) rfl ?_ ?_
        (undecided_subset issued [] ?_) ?_
      · cases receive <;> simp [progress_append]
      · intro other stored present
        by_cases equal : other = requestId
        · simp [equal] at present
        · simp only [Function.update_of_ne equal] at present
          exact copies.submitted other stored present
      · intro other member
        have kept := copies.pending other member
        dsimp only
        rw [Function.update_of_ne]
        · exact kept
        · intro equal
          have listed := List.filter_eq_nil_iff.mp left other member
          simp [equal] at listed
      · cases receive <;> simp [World.decisions, List.filterMap_cons]
      · intro response member success
        rw [World.returning, ← List.append_assoc] at member
        rcases List.mem_append.mp member with member | member
        · exact copies.returning response member success
        · rw [List.mem_singleton.mp member] at success ⊢
          exact (copies.copiedOnce agreed.accounted.stream matched submitted terminal
            success).copied
  | deliver response allowed => exact (serving _ _ allowed).elim
  | take request rest requests allowed => exact (serving _ _ allowed).elim

theorem transition (copies : Copies world) (agreed : Agreed world)
    (serving : ∀ world event, permitted world event → Serving world event)
    (transition : Transition permitted world next) : Copies next :=
  transition.elim (copies.sender agreed serving) (copies.responder agreed serving)

end Copies

end Ugdr.Worker
