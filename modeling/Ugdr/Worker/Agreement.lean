import Ugdr.Worker.Position
import Ugdr.Worker.Wraparound

/-! # Splitter and reassembler

For every parent that the responder has looked up, its datagrams are disposed of in
the way the lookup calls for, over every run of the two workers.
-/

namespace Ugdr.Worker

open Ugdr.Queue Ugdr.Control
open Ugdr.Control.QpService (WorkerQpView)

variable {permitted : World → Event → Prop} {world next : World}

/-- The splitter and the reassembler agree up to the datagrams disposed of. -/
structure Agreed (world : World) : Prop where
  accounted : SendWrsAccounted world
  conserved : Conserved world
  addressed : ∀ parent ∈ world.issued, parent.targetQpNum = world.responder.qpNum
  valid : ∀ request, .invalidPayload request ∉ world.trace
  position : ∃ position : Position, position.Describes world

/-! ## What the responder can find -/

namespace Agreed

variable {position : Position} {request : RequestDatagram}

/-- The pending request comes from an issued parent. -/
theorem carried (agreed : Agreed world) (describes : position.Describes world)
    (pending : world.responder.pendingRequest = some request) :
    ∃ parent ∈ world.issued, request ∈ parent.datagrams world.requester.payloadBytes := by
  rcases describes.next_datagram agreed.accounted.stream agreed.conserved pending with
    ⟨-, parent, waiting, rest, waits, -, split⟩ | ⟨current, rest, worked, leaves⟩
  · refine ⟨parent, ?_, by rw [split]; exact List.mem_cons_self⟩
    rw [describes.issued, Position.opened, waits]
    simp
  · obtain ⟨split, -⟩ := describes.current current worked
    refine ⟨current.parent, ?_, by rw [split, leaves]; simp⟩
    rw [describes.issued, Position.opened, worked]
    simp

theorem pending_addressed (agreed : Agreed world)
    (pending : world.responder.pendingRequest = some request) : Addressed world request := by
  obtain ⟨position, describes⟩ := agreed.position
  obtain ⟨parent, member, listed⟩ := agreed.carried describes pending
  have carries := PendingSend.carries_of_mem listed
  have short := (agreed.accounted.stream.built parent member).totalLength
  refine ⟨carries.targetQpNum.trans (agreed.addressed parent member), ?_⟩
  rw [carries.parentTotalLength]
  omega

/-- A valid first datagram of a parent that is not in flight is the first datagram of
the first waiting parent. -/
theorem first_of_absent (agreed : Agreed world) (describes : position.Describes world)
    (pending : world.responder.pendingRequest = some request)
    (absent : world.responder.responderInflight request.parentRequestId = none)
    (valid : validFirst request = true) :
    position.current = none ∧ ∃ parent waiting rest, position.waiting = parent :: waiting ∧
      request = parent.datagram world.requester.payloadBytes ∧
      parent.datagrams world.requester.payloadBytes = request :: rest := by
  rcases describes.next_datagram agreed.accounted.stream agreed.conserved pending with
    first | ⟨current, rest, worked, leaves⟩
  · exact first
  · exfalso
    obtain ⟨split, -, tracked⟩ := describes.current current worked
    rw [leaves] at split
    have member : current.parent ∈ world.issued := by
      rw [describes.issued, Position.opened, worked]
      simp
    have carries := PendingSend.carries_of_mem (by rw [split]; simp :
      request ∈ current.parent.datagrams world.requester.payloadBytes)
    unfold Current.Tracked at tracked
    rw [← carries.parentRequestId, absent] at tracked
    split at tracked
    · obtain ⟨-, inflight, found, -⟩ := tracked
      cases found
    · have invalid := validFirst_after (agreed.accounted.stream.built _ member) tracked.1 split
      rw [valid] at invalid
      cases invalid

/-- An invalid first datagram of a parent that is not in flight is a later datagram of
a parent whose key did not resolve. -/
theorem later_of_absent (agreed : Agreed world) (describes : position.Describes world)
    (pending : world.responder.pendingRequest = some request)
    (absent : world.responder.responderInflight request.parentRequestId = none)
    (invalid : validFirst request = false) :
    ∃ current status rest, position.current = some current ∧ current.decision = .error status ∧
      current.left = request :: rest ∧ current.handled ≠ [] := by
  rcases describes.next_datagram agreed.accounted.stream agreed.conserved pending with
    ⟨-, parent, waiting, rest, waits, same, -⟩ | ⟨current, rest, worked, leaves⟩
  · exfalso
    have member : parent ∈ world.issued := by
      rw [describes.issued, Position.opened, waits]
      simp
    rw [same, validFirst_datagram (agreed.accounted.stream.built parent member)] at invalid
    cases invalid
  · obtain ⟨split, -, tracked⟩ := describes.current current worked
    rw [leaves] at split
    have carries := PendingSend.carries_of_mem (by rw [split]; simp :
      request ∈ current.parent.datagrams world.requester.payloadBytes)
    unfold Current.Tracked at tracked
    rw [← carries.parentRequestId, absent] at tracked
    cases decision : current.decision with
    | ok target =>
        rw [decision] at tracked
        obtain ⟨-, inflight, found, -⟩ := tracked
        cases found
    | error status =>
        rw [decision] at tracked
        exact ⟨current, status, rest, worked, decision, leaves, tracked.1⟩

/-- A request of a parent in flight is the next datagram of the parent worked on, whose
key resolved, and it passes the checks. -/
theorem next_of_found (agreed : Agreed world) (describes : position.Describes world)
    (pending : world.responder.pendingRequest = some request) {inflight : ResponderInflight}
    (found : world.responder.responderInflight request.parentRequestId = some inflight) :
    ∃ current target rest, position.current = some current ∧ current.decision = .ok target ∧
      current.left = request :: rest ∧ current.parent.totalLength ≠ 0 ∧
      request.parentRequestId = current.parent.parentRequestId ∧
      Matches inflight current.parent target current.handled ∧
      validPayload request inflight = true := by
  rcases describes.next_datagram agreed.accounted.stream agreed.conserved pending with
    ⟨-, parent, waiting, rest, waits, same, -⟩ | ⟨current, rest, worked, leaves⟩
  · exfalso
    have unseen := describes.waiting parent (by rw [waits]; exact List.mem_cons_self)
    rw [same, (PendingSend.carries_datagram _ parent).parentRequestId, unseen] at found
    cases found
  · obtain ⟨split, -, tracked⟩ := describes.current current worked
    rw [leaves] at split
    have member : current.parent ∈ world.issued := by
      rw [describes.issued, Position.opened, worked]
      simp
    have carries := PendingSend.carries_of_mem (by rw [split]; simp :
      request ∈ current.parent.datagrams world.requester.payloadBytes)
    unfold Current.Tracked at tracked
    rw [← carries.parentRequestId, found] at tracked
    cases decision : current.decision with
    | ok target =>
        rw [decision] at tracked
        obtain ⟨nonzero, other, same, matched⟩ := tracked
        injection same with same
        subst same
        exact ⟨current, target, rest, worked, decision, leaves, nonzero,
          carries.parentRequestId, matched, validPayload_of_matches
            (agreed.accounted.stream.built _ member) nonzero split matched⟩
    | error status =>
        rw [decision] at tracked
        cases tracked.2

end Agreed

/-! ## Steps -/

/-- The requester's QP is connected to the responder's, a parent is issued under an id
that no other parent in flight has, and only the responder reads the requests. -/
def Paired (world : World) : Event → Prop
  | .issued _ view _ parent =>
      view.peerQpNum = world.responder.qpNum ∧ FreshId world parent.parentRequestId
  | .taken _ => False
  | _ => True

instance (world : World) : DecidablePred (Paired world)
  | .issued _ view _ parent =>
      inferInstanceAs (Decidable (view.peerQpNum = world.responder.qpNum ∧
        FreshId world parent.parentRequestId))
  | .taken _ => inferInstanceAs (Decidable False)
  | .posted _ | .failed _ _ | .sent _ | .released _ | .consumed _ _ | .resolved _ _ _
  | .disposed _ _ | .invalidPayload _ | .accepted _ | .popped _ | .responded _ | .received _ _
  | .polledSend _ | .polledReceive _ | .foreignSend _ | .foreignReceive _ | .delivered _ =>
      inferInstanceAs (Decidable True)

namespace Agreed

theorem sender_position (agreed : Agreed world)
    (paired : ∀ world event, permitted world event → Paired world event)
    (transition : SenderTransition permitted world next) :
    ∃ position : Position, position.Describes next := by
  obtain ⟨position, describes⟩ := agreed.position
  have frame := transition.responderFrame
  have decisions : next.decisions = world.decisions :=
    frame.filterMap fun event own => by cases event <;> first | rfl | cases own
  have disposed : next.disposed = world.disposed :=
    frame.filterMap fun event own => by cases event <;> first | rfl | cases own
  have keeps : next.issued = world.issued →
      next.requester.payloadBytes = world.requester.payloadBytes → position.Describes next := by
    intro issued payloadBytes
    refine describes.congr issued decisions disposed payloadBytes ?_ ?_
    · intro current _ tracked
      unfold Current.Tracked at tracked ⊢
      rwa [frame.responder]
    · intro parent _ unseen
      rwa [frame.responder]
  cases transition with
  | issue service view wqe rest gathered parent idle peeked items inspected built qpNum absent
      allowed =>
      exact ⟨_, describes.issue agreed.accounted.stream agreed.conserved idle
        (paired _ _ allowed).2 (by simp [World.issued]) decisions disposed rfl rfl⟩
  | pushLast parent pending =>
      obtain ⟨-, wqe, rest, items, -⟩ := agreed.accounted.queue.busy parent pending
      exact ⟨position, keeps (by simp [World.issued, items]) rfl⟩
  | _ => exact ⟨position, keeps (by simp [World.issued]) rfl⟩

/-- Storing a state that matches as well as the old one keeps every position. -/
theorem describes_update {position : Position} (describes : position.Describes world)
    {requestId : Nat} {old new : ResponderInflight}
    (found : world.responder.responderInflight requestId = some old)
    (matches_ : ∀ parent target handled, Matches old parent target handled →
      Matches new parent target handled)
    (inflight : next.responder.responderInflight =
      Function.update world.responder.responderInflight requestId (some new))
    (issued : next.issued = world.issued) (decisions : next.decisions = world.decisions)
    (disposed : next.disposed = world.disposed)
    (payloadBytes : next.requester.payloadBytes = world.requester.payloadBytes) :
    position.Describes next := by
  refine describes.congr issued decisions disposed payloadBytes ?_ ?_
  · intro current _ tracked
    unfold Current.Tracked at tracked ⊢
    rw [inflight]
    by_cases same : current.parent.parentRequestId = requestId
    · rw [same, Function.update_self]
      rw [same, found] at tracked
      split at tracked
      · obtain ⟨nonzero, other, ⟨⟩, matched⟩ := tracked
        exact ⟨nonzero, new, rfl, matches_ _ _ _ matched⟩
      · cases tracked.2
    · rwa [Function.update_of_ne same]
  · intro parent _ unseen
    have different : parent.parentRequestId ≠ requestId := by
      rintro rfl
      rw [found] at unseen
      cases unseen
    rwa [inflight, Function.update_of_ne different]

/-- A parent is erased only after its last datagram, so no open parent is. -/
theorem describes_erase (agreed : Agreed world) {position : Position}
    (describes : position.Describes world) {requestId : Nat} {old : ResponderInflight}
    (found : world.responder.responderInflight requestId = some old)
    (submitted : old.nextPayloadIndex = old.payloadCount)
    (inflight : next.responder.responderInflight =
      Function.update world.responder.responderInflight requestId none)
    (issued : next.issued = world.issued) (decisions : next.decisions = world.decisions)
    (disposed : next.disposed = world.disposed)
    (payloadBytes : next.requester.payloadBytes = world.requester.payloadBytes) :
    position.Describes next := by
  refine describes.congr issued decisions disposed payloadBytes ?_ ?_
  · intro current worked tracked
    obtain ⟨divided, remaining, -⟩ := describes.current current worked
    have member : current.parent ∈ world.issued := by
      rw [describes.issued, Position.opened, Option.mem_def.mp worked]
      simp
    unfold Current.Tracked at tracked ⊢
    rw [inflight]
    split at tracked
    · rename_i target decision
      obtain ⟨nonzero, other, stored, matched⟩ := tracked
      have different : current.parent.parentRequestId ≠ requestId := by
        intro same
        rw [same, found] at stored
        injection stored with stored
        subst stored
        have length := (agreed.accounted.stream.built _ member).split nonzero
        have count := matched.payloadCount
        have handled := matched.nextPayloadIndex
        have left := List.length_pos_of_ne_nil remaining
        rw [divided, List.length_append] at length
        omega
      rw [Function.update_of_ne different]
      exact ⟨nonzero, other, stored, matched⟩
    · refine ⟨tracked.1, ?_⟩
      rw [Function.update_apply]
      split
      · rfl
      · exact tracked.2
  · intro parent _ unseen
    rw [inflight, Function.update_apply]
    split
    · rfl
    · exact unseen

theorem matches_record {inflight : ResponderInflight} {parent : PendingSend} {target : Nat}
    {handled : List RequestDatagram} (completion : BackendCompletion)
    (matched : Matches inflight parent target handled) :
    Matches (inflight.record completion) parent target handled := by
  unfold ResponderInflight.record
  split <;> exact { matched with }

theorem matches_advance {inflight : ResponderInflight} {parent : PendingSend} {target : Nat}
    {handled : List RequestDatagram} (consumed : Bool) (request : RequestDatagram)
    (matched : Matches inflight parent target handled) :
    Matches ({ inflight with receiveConsumed := consumed }.advance request) parent target
      (handled ++ [request]) := by
  refine { matched with nextPayloadIndex := ?_, nextPayloadOffset := ?_ }
  · simp [ResponderInflight.advance, matched.nextPayloadIndex]
  · simp [ResponderInflight.advance, matched.nextPayloadOffset, PendingSend.payloadLengths]

theorem matches_admitted {parent : PendingSend} {request : RequestDatagram}
    (carries : parent.Carries request) (target : Nat) (receive : Option ReceiveWqeHeader) :
    Matches (responderInflightOf request target receive) parent target [] :=
  { sourceQpNum := carries.sourceQpNum
    targetQpNum := carries.targetQpNum
    opcode := carries.opcode
    remoteAddress := carries.remoteAddress
    rkey := carries.rkey
    immediateData := carries.immediateData
    parentTotalLength := carries.parentTotalLength
    payloadCount := carries.payloadCount
    targetDaemonAddress := rfl
    nextPayloadIndex := rfl
    nextPayloadOffset := rfl }

theorem responder_position (agreed : Agreed world)
    (transition : ResponderTransition permitted world next) :
    (∃ position : Position, position.Describes next) ∧
      ∀ request, .invalidPayload request ∉ next.trace := by
  obtain ⟨position, describes⟩ := agreed.position
  have frame := transition.senderFrame
  have issued : next.issued = world.issued :=
    frame.filterMap fun event foreign => by cases event <;> first | rfl | cases foreign
  have payloadBytes : next.requester.payloadBytes = world.requester.payloadBytes := by
    rw [frame.requester]
  have valid := agreed.valid
  cases transition with
  | receiveQueue | loadRequest | dropOrder =>
      exact ⟨⟨position, describes.congr rfl rfl rfl rfl (fun _ _ tracked => tracked)
        fun _ _ unseen => unseen⟩, valid⟩
  | pollReceive | foreignReceive | popUnknown | deliver | take =>
      refine ⟨⟨position, describes.congr issued ?_ ?_ payloadBytes ?_ ?_⟩, ?_⟩
      · simp [World.decisions]
      · simp [World.disposed]
      · exact fun _ _ tracked => tracked
      · exact fun _ _ unseen => unseen
      · simpa using valid
  | reject start request result disposal resolution pending reason =>
      cases reason with
      | target misaddressed => exact absurd (agreed.pending_addressed pending) misaddressed
      | first addressed absent invalid =>
          obtain ⟨current, status, rest, worked, decision, leaves, started⟩ :=
            agreed.later_of_absent describes pending absent invalid
          refine ⟨⟨_, describes.advance worked leaves
            (by rw [decision]; exact expectedDisposals_error_concat status started request)
            issued ?_ ?_ payloadBytes ?_ describes.waiting⟩, by simpa using valid⟩
          · simp [World.decisions, List.filterMap_cons]
          · simp [World.disposed, List.filterMap_cons]
          · intro _
            have tracked := (describes.current current worked).2.2
            unfold Current.Tracked at tracked ⊢
            simp only [decision] at tracked ⊢
            exact ⟨by simp, tracked.2⟩
      | access service view status addressed absent first resolved =>
          obtain ⟨idle, parent, waiting, rest, waits, same, split⟩ :=
            agreed.first_of_absent describes pending absent first
          have carries := PendingSend.carries_datagram world.requester.payloadBytes parent
          rw [← same] at carries
          refine ⟨⟨_, describes.start idle waits (.error status) [request] rest split issued
            ?_ ?_ payloadBytes ?_ ?_⟩, by simpa using valid⟩
          · simp [World.decisions, List.filterMap_cons, resolved, ← same]
          · simp [World.disposed, List.filterMap_cons, expectedDisposals]
          · intro _
            exact ⟨by simp, by rw [← carries.parentRequestId]; exact absent⟩
          · exact fun other member =>
              describes.waiting other (by rw [waits]; exact List.mem_cons_of_mem _ member)
  | admitted service view request target receive receiveQueue pending addressed absent first
      resolved =>
      obtain ⟨idle, parent, waiting, rest, waits, same, split⟩ :=
        agreed.first_of_absent describes pending absent first
      have carries := PendingSend.carries_datagram world.requester.payloadBytes parent
      rw [← same] at carries
      have distinct := describes.distinct
      rw [Position.opened, idle, waits] at distinct
      refine ⟨⟨_, describes.start idle waits (.ok target) [] (request :: rest) split issued
        ?_ ?_ payloadBytes ?_ ?_⟩, by simpa using valid⟩
      · simp [World.decisions, resolved, ← same]
      · simp [World.disposed, expectedDisposals]
      · intro _
        refine ⟨?_, _, ?_, matches_admitted carries target receive⟩
        · rw [← carries.parentTotalLength]
          exact resolveKey_length_ne_zero resolved
        · rw [← carries.parentRequestId]
          exact Function.update_self _ _ _
      · intro other member
        have different : other.parentRequestId ≠ request.parentRequestId := by
          rw [carries.parentRequestId]
          intro equal
          exact (List.nodup_cons.mp distinct).1
            (List.mem_map.mpr ⟨other, member, equal⟩)
        simp only [Function.update_of_ne different]
        exact describes.waiting other (by rw [waits]; exact List.mem_cons_of_mem _ member)
  | invalidPayload request parent pending addressed found invalid =>
      obtain ⟨-, -, -, -, -, -, -, -, -, passes⟩ := agreed.next_of_found describes pending found
      rw [invalid] at passes
      cases passes
  | zeroPayload request parent consumed receiveQueue pending found passes zero =>
      obtain ⟨current, target, rest, worked, decision, leaves, nonzero, -, matched, -⟩ :=
        agreed.next_of_found describes pending found
      have member : current.parent ∈ world.issued := by
        rw [describes.issued, Position.opened, worked]
        simp
      have count := (agreed.accounted.stream.built _ member).payloadCount_ne_zero nonzero
      exact absurd (matched.payloadCount.symm.trans zero) count
  | accept request parent consumed receiveQueue pending found passes nonempty room =>
      obtain ⟨current, target, rest, worked, decision, leaves, nonzero, same, matched, -⟩ :=
        agreed.next_of_found describes pending found
      have distinct := describes.distinct
      rw [Position.opened, worked] at distinct
      refine ⟨⟨_, describes.advance worked leaves
        (by rw [decision]; exact expectedDisposals_ok_concat target current.handled request)
        issued ?_ ?_ payloadBytes ?_ ?_⟩, by simpa using valid⟩
      · simp [World.decisions]
      · simp [World.disposed, matched.targetDaemonAddress]
      · intro _
        unfold Current.Tracked
        simp only [decision]
        refine ⟨nonzero, _, ?_, matches_advance consumed request matched⟩
        rw [← same]
        exact Function.update_self _ _ _
      · intro other member
        have different : other.parentRequestId ≠ request.parentRequestId := by
          rw [same]
          intro equal
          exact (List.nodup_cons.mp distinct).1
            (List.mem_map.mpr ⟨other, member, equal⟩)
        simp only [LoopWorker.setResponderInflight, Function.update_of_ne different]
        exact describes.waiting other member
  | flush accepted =>
      refine ⟨⟨position, describes.congr issued ?_ ?_ payloadBytes ?_ ?_⟩, ?_⟩
      · rw [World.decisions, List.filterMap_append, filterMap_accepted fun _ => rfl,
          List.append_nil]
        rfl
      · rw [World.disposed, List.filterMap_append, filterMap_accepted fun _ => rfl,
          List.append_nil]
        rfl
      · exact fun _ _ tracked => tracked
      · exact fun _ _ unseen => unseen
      · intro request member
        rcases List.mem_append.mp member with member | member
        · exact valid request member
        · obtain ⟨_, _, different⟩ := List.mem_map.mp member
          cases different
  | pop start completion earlier parent trace found allowed =>
      refine ⟨⟨position, describes_update describes found
        (fun _ _ _ => matches_record completion) rfl issued ?_ ?_ payloadBytes⟩,
        by simpa using valid⟩
      · simp [World.decisions]
      · simp [World.disposed]
  | retire view requestId order parent receive head found submitted terminal receives =>
      refine ⟨⟨position, agreed.describes_erase describes found submitted rfl issued ?_ ?_
        payloadBytes⟩, by cases receive <;> simpa using valid⟩
      · cases receive <;> simp [World.decisions, List.filterMap_cons]
      · cases receive <;> simp [World.disposed, List.filterMap_cons]

theorem transition (agreed : Agreed world)
    (paired : ∀ world event, permitted world event → Paired world event)
    (transition : Transition permitted world next) : Agreed next := by
  have accounted := agreed.accounted.transition transition
  have conserved := agreed.conserved.transition
    (fun world request allowed => paired world _ allowed) transition
  rcases transition with transition | transition
  · have frame := transition.responderFrame
    refine ⟨accounted, conserved, ?_, ?_, agreed.sender_position paired transition⟩
    · rw [frame.responder]
      cases transition with
      | issue service view wqe rest gathered parent idle peeked items inspected built qpNum
          absent allowed =>
          intro other member
          rw [World.issued, List.filterMap_append] at member
          rcases List.mem_append.mp member with member | member
          · exact agreed.addressed other member
          · have same : other = parent := by simpa using member
            rw [same, built]
            exact (paired _ _ allowed).1
      | pushLast parent pending =>
          obtain ⟨-, wqe, rest, items, -⟩ := agreed.accounted.queue.busy parent pending
          simpa [World.issued, items] using agreed.addressed
      | _ => simpa [World.issued] using agreed.addressed
    · obtain ⟨events, trace, own⟩ := frame.trace
      intro request member
      rw [trace] at member
      rcases List.mem_append.mp member with member | member
      · exact agreed.valid request member
      · cases own _ member
  · have frame := transition.senderFrame
    obtain ⟨position, valid⟩ := agreed.responder_position transition
    refine ⟨accounted, conserved, ?_, valid, position⟩
    have issued : next.issued = world.issued :=
      frame.filterMap fun event foreign => by cases event <;> first | rfl | cases foreign
    rw [issued, frame.responderQpNum]
    exact agreed.addressed

theorem initial (configuration : World.Configuration) :
    Agreed (World.initial configuration) where
  accounted := initial_accounted configuration
  conserved := ⟨rfl, rfl⟩
  addressed := nofun
  valid := nofun
  position := ⟨⟨[], none, []⟩, rfl, rfl, rfl, nofun, nofun, List.nodup_nil⟩

end Agreed

/-! ## Ranges -/

/-- The backend requests of a parent that is copied to `target`. -/
def parentRequests (payloadBytes : Nat) (parent : PendingSend) (target : Nat) :
    List BackendRequest :=
  (parent.datagrams payloadBytes).map fun request => backendRequestOf request target

/-- The backend requests of a parent write its target range without gap or overlap, read
the segments of the WR in order, and are numbered from zero. -/
structure Tiles (payloadBytes : Nat) (parent : PendingSend) (target : Nat) : Prop where
  targets : (parentRequests payloadBytes parent target).flatMap (fun request =>
      addresses request.targetDaemonAddress request.payloadLength) =
    addresses target parent.totalLength
  sources : (parentRequests payloadBytes parent target).flatMap (fun request =>
      addresses request.sourceDaemonAddress request.payloadLength) =
    segmentBytes parent.sourceSegments
  indices : (parentRequests payloadBytes parent target).map BackendRequest.payloadIndex =
    List.range parent.payloadCount
  lengths : ((parentRequests payloadBytes parent target).map
    BackendRequest.payloadLength).sum = parent.totalLength

theorem consecutive_targets (target : Nat) {index offset : Nat}
    {requests : List RequestDatagram}
    (consecutive : PendingSend.Consecutive index offset requests) :
    (requests.flatMap fun request =>
        addresses ((target + request.payloadOffset) % 2 ^ 64) request.payloadLength) =
      addresses (target + offset) (PendingSend.payloadLengths requests) := by
  induction requests generalizing index offset with
  | nil => rfl
  | cons request requests induction =>
      obtain ⟨-, same, -, rest⟩ := consecutive
      have total : PendingSend.payloadLengths (request :: requests) =
          request.payloadLength + PendingSend.payloadLengths requests :=
        rfl
      rw [List.flatMap_cons, induction rest, addresses_mod, same, total, addresses_add,
        Nat.add_assoc]

theorem consecutive_indices {index offset : Nat} {requests : List RequestDatagram}
    (consecutive : PendingSend.Consecutive index offset requests) :
    requests.map RequestDatagram.payloadIndex = List.range' index requests.length := by
  induction requests generalizing index offset with
  | nil => rfl
  | cons request requests induction =>
      obtain ⟨same, -, -, rest⟩ := consecutive
      rw [List.map_cons, induction rest, same, List.length_cons, List.range'_succ]

theorem tiles_of_built {payloadBytes : Nat} {parent : PendingSend}
    (built : parent.Built payloadBytes) (nonzero : parent.totalLength ≠ 0) (target : Nat) :
    Tiles payloadBytes parent target := by
  obtain ⟨length, consecutive, covered, sources⟩ := built.split nonzero
  have targets := consecutive_targets target consecutive
  have indices := consecutive_indices consecutive
  rw [covered, Nat.add_zero] at targets
  rw [length, ← List.range_eq_range'] at indices
  constructor
  · rw [parentRequests, List.flatMap_map]
    exact targets
  · rw [parentRequests, List.flatMap_map, ← sources]
    rfl
  · rw [parentRequests, List.map_map, ← indices]
    rfl
  · rw [parentRequests, List.map_map, ← covered]
    rfl

/-! ## Runs -/

/-- What the splitter and the reassembler agree on, for the parents issued so far and
the decisions of `resolve_rkey` about the first of them. -/
structure SplitAndReassembled (world : World) : Prop where
  /-- The decisions are about the first datagrams of the parents, in order. -/
  decisions : world.decisions.map Prod.fst <+:
    world.issued.map (PendingSend.datagram world.requester.payloadBytes)
  /-- Each datagram is disposed of in the way the decision about its parent calls for. -/
  disposed : world.disposed <+:
    (world.issued.zip (world.decisions.map Prod.snd)).flatMap fun decided =>
      expectedDisposals decided.2 (decided.1.datagrams world.requester.payloadBytes)
  noInvalidPayload : ∀ request, .invalidPayload request ∉ world.trace
  /-- The backend is handed each request once, in datagram order. -/
  accepted : world.created = world.accepted ++ world.responder.pendingBackendRequests
  /-- No datagram is lost between the workers. -/
  conserved : world.sent = world.disposed.map Prod.fst ++ world.travelling
  sent : world.sent <+:
    world.issued.flatMap (PendingSend.datagrams world.requester.payloadBytes)
  tiles : ∀ decided ∈ world.issued.zip (world.decisions.map Prod.snd),
    ∀ target, decided.2 = .ok target →
      Tiles world.requester.payloadBytes decided.1 target
  segments : SegmentsResolved world

/-- Pairing the issued parents with the decisions gives the decided parents. -/
theorem Position.Describes.zip_decisions {position : Position}
    (describes : position.Describes world) :
    world.issued.zip (world.decisions.map Prod.snd) = position.decided := by
  have issued : world.issued = position.decided.map Prod.fst ++ position.waiting := by
    rw [describes.issued, Position.decided, Position.opened]
    simp [Function.comp_def]
  have decisions : world.decisions.map Prod.snd = position.decided.map Prod.snd := by
    rw [describes.decisions, List.map_map]
    rfl
  rw [issued, decisions, ← List.append_nil (position.decided.map Prod.snd),
    List.zip_append (by simp), List.zip_nil_right, List.append_nil]
  exact (List.zip_of_prod rfl rfl).symm

/-- Every key that resolved was asked for a nonempty range. -/
theorem Position.Describes.nonzero_of_ok {position : Position}
    (describes : position.Describes world) {decided : PendingSend × Except Errno Nat}
    (member : decided ∈ position.decided) {target : Nat} (ok : decided.2 = .ok target) :
    decided.1.totalLength ≠ 0 := by
  have listed : (decided.1.datagram world.requester.payloadBytes, decided.2) ∈
      world.decisions := by
    rw [describes.decisions]
    exact List.mem_map_of_mem member
  obtain ⟨event, -, recorded⟩ := List.mem_filterMap.mp listed
  cases event with
  | resolved service view request =>
      simp only [Event.resolved?, Option.some.injEq, Prod.mk.injEq] at recorded
      obtain ⟨same, answer⟩ := recorded
      rw [ok] at answer
      have nonzero := resolveKey_length_ne_zero answer
      rwa [same, (PendingSend.carries_datagram _ decided.1).parentTotalLength] at nonzero
  | _ => cases recorded

theorem Agreed.splitAndReassembled (agreed : Agreed world) : SplitAndReassembled world := by
  obtain ⟨position, describes⟩ := agreed.position
  have zipped := describes.zip_decisions
  have issued : world.issued = position.decided.map Prod.fst ++ position.waiting := by
    rw [describes.issued, Position.decided, Position.opened]
    simp [Function.comp_def]
  constructor
  · rw [issued, describes.decisions, List.map_append, List.map_map, List.map_map]
    exact List.prefix_append _ _
  · rw [zipped, describes.disposed, Position.decided, List.flatMap_append]
    refine List.prefix_append_right_inj _ |>.mpr ?_
    cases worked : position.current with
    | none => exact List.prefix_refl _
    | some current =>
        obtain ⟨split, -⟩ := describes.current current worked
        simp only [Option.toList_some, List.flatMap_cons, List.flatMap_nil, List.append_nil,
          List.map_cons, List.map_nil, split]
        exact expectedDisposals_append _ _ _
  · exact agreed.valid
  · exact agreed.conserved.backendRequests
  · exact agreed.conserved.requests
  · rw [← agreed.accounted.stream.sent]
    exact List.prefix_append _ _
  · rw [zipped]
    intro decided member target ok
    have listed : decided.1 ∈ world.issued := by
      rw [issued]
      exact List.mem_append_left _ (List.mem_map_of_mem member)
    exact tiles_of_built (agreed.accounted.stream.built _ listed)
      (describes.nonzero_of_ok member ok) target
  · exact agreed.accounted.segments

/-- Over every interleaving of the two workers, whatever the backend accepts and
whenever receive WRs become available, the reassembler disposes of each datagram as
the decision about its parent calls for. -/
theorem splitter_and_reassembler_agree {configuration : World.Configuration}
    {actions : List Action}
    (admissible : Execution.Along World.step (Admissible Paired)
      (World.initial configuration) actions) :
    SplitAndReassembled (Execution.run World.step (World.initial configuration) actions) :=
  Agreed.splitAndReassembled
    (run_invariant
      (fun _ _ transition agreed => agreed.transition (fun _ _ paired => paired) transition)
      (Agreed.initial configuration) admissible)

/-- Two of the three datagrams of a write from two segments, of which the backend takes
the first. -/
def splitWrite : List Action :=
  [.postSend Loopback.twoSegments, .trySend Loopback.service, .tryRequest Loopback.service,
    .trySend Loopback.service, .tryRequest Loopback.service,
    .tryFlushBackendRequests Loopback.service 1]

theorem splitter_and_reassembler_agree_twoSegments :
    (Execution.run World.step (World.initial Loopback.configuration) splitWrite).accepted ≠ [] ∧
      SplitAndReassembled
        (Execution.run World.step (World.initial Loopback.configuration) splitWrite) := by
  refine ⟨by decide +kernel, splitter_and_reassembler_agree (along_admissible ?_ ?_)⟩
  · simp only [splitWrite]
    exact Loopback.actions_reachable (by simp [Action.service])
  · decide +kernel

end Ugdr.Worker
