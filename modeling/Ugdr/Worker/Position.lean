import Ugdr.Worker.Conservation

/-! # Positions of the reassembler

Where the responder is in the stream of datagrams: the parents it is done with, the
one it works on and those it has not looked up. What the checks of `try_request` say
about the datagrams that the requester's cursor produces.
-/

namespace Ugdr.Worker

open Ugdr.Queue Ugdr.Control
open Ugdr.Control.QpService (WorkerQpView)

variable {permitted : World → Event → Prop} {world next : World}

/-! ## Expected disposals -/

/-- How the datagrams of a parent should be disposed of. If the remote key resolves,
each becomes one backend request at its offset from the resolved address; if not, the
first is answered with an access error and the others as invalid. -/
def expectedDisposals (decision : Except Errno Nat) (requests : List RequestDatagram) :
    List (RequestDatagram × Disposal) :=
  match decision, requests with
  | .ok target, requests =>
      requests.map fun request => (request, .backendRequest (backendRequestOf request target))
  | .error _, [] => []
  | .error _, request :: requests =>
      (request, .accessError) :: requests.map fun request => (request, .invalidFirst)

theorem expectedDisposals_fst (decision : Except Errno Nat)
    (requests : List RequestDatagram) :
    (expectedDisposals decision requests).map Prod.fst = requests := by
  cases decision with
  | ok target => simp [expectedDisposals, Function.comp_def]
  | error status =>
      cases requests <;> simp [expectedDisposals, Function.comp_def]

theorem expectedDisposals_ok_concat (target : Nat) (requests : List RequestDatagram)
    (request : RequestDatagram) :
    expectedDisposals (.ok target) (requests ++ [request]) =
      expectedDisposals (.ok target) requests ++
        [(request, .backendRequest (backendRequestOf request target))] := by
  simp [expectedDisposals]

theorem expectedDisposals_error_concat (status : Errno) {requests : List RequestDatagram}
    (started : requests ≠ []) (request : RequestDatagram) :
    expectedDisposals (.error status) (requests ++ [request]) =
      expectedDisposals (.error status) requests ++ [(request, .invalidFirst)] := by
  cases requests with
  | nil => exact absurd rfl started
  | cons first requests => simp [expectedDisposals]

theorem expectedDisposals_append (decision : Except Errno Nat)
    (before after : List RequestDatagram) :
    expectedDisposals decision before <+: expectedDisposals decision (before ++ after) := by
  cases decision with
  | ok target => exact ⟨_, (List.map_append).symm⟩
  | error status =>
      cases before with
      | nil => exact List.nil_prefix
      | cons first before => exact ⟨_, by simp [expectedDisposals]; rfl⟩

/-! ## Where the responder is -/

/-- The parent whose datagrams the responder is working on: those disposed of and
those left. -/
structure Current where
  parent : PendingSend
  decision : Except Errno Nat
  handled : List RequestDatagram
  left : List RequestDatagram

/-- The parents that are disposed of, with what was decided about each, the parent
worked on, and those the responder has not looked up yet. -/
structure Position where
  finished : List (PendingSend × Except Errno Nat)
  current : Option Current
  waiting : List PendingSend

/-- The state kept for a parent agrees with the datagrams disposed of so far. -/
structure Matches (inflight : ResponderInflight) (parent : PendingSend) (target : Nat)
    (handled : List RequestDatagram) : Prop where
  sourceQpNum : inflight.sourceQpNum = parent.sourceQpNum
  targetQpNum : inflight.targetQpNum = parent.targetQpNum
  opcode : inflight.opcode = parent.opcode
  remoteAddress : inflight.remoteAddress = parent.remoteAddress
  rkey : inflight.rkey = parent.rkey
  immediateData : inflight.immediateData = parent.immediateData
  parentTotalLength : inflight.parentTotalLength = parent.totalLength
  payloadCount : inflight.payloadCount = parent.payloadCount
  targetDaemonAddress : inflight.targetDaemonAddress = target
  nextPayloadIndex : inflight.nextPayloadIndex = handled.length
  nextPayloadOffset : inflight.nextPayloadOffset = PendingSend.payloadLengths handled

/-- What the in-flight map says about the parent worked on. -/
def Current.Tracked (current : Current) (world : World) : Prop :=
  match current.decision with
  | .ok target =>
      current.parent.totalLength ≠ 0 ∧
        ∃ inflight,
          world.responder.responderInflight current.parent.parentRequestId = some inflight ∧
          Matches inflight current.parent target current.handled
  | .error _ =>
      current.handled ≠ [] ∧
        world.responder.responderInflight current.parent.parentRequestId = none

namespace Position

/-- The parents with a datagram that is not disposed of. -/
def opened (position : Position) : List PendingSend :=
  position.current.toList.map Current.parent ++ position.waiting

/-- The parents looked up so far, with what was decided about each. -/
def decided (position : Position) : List (PendingSend × Except Errno Nat) :=
  position.finished ++
    position.current.toList.map fun current => (current.parent, current.decision)

structure Describes (position : Position) (world : World) : Prop where
  issued : world.issued = position.finished.map Prod.fst ++ position.opened
  decisions : world.decisions = position.decided.map fun decided =>
    (decided.1.datagram world.requester.payloadBytes, decided.2)
  disposed : world.disposed =
    (position.finished.flatMap fun decided =>
        expectedDisposals decided.2 (decided.1.datagrams world.requester.payloadBytes)) ++
      position.current.toList.flatMap fun current =>
        expectedDisposals current.decision current.handled
  current : ∀ current ∈ position.current,
    current.parent.datagrams world.requester.payloadBytes = current.handled ++ current.left ∧
      current.left ≠ [] ∧ current.Tracked world
  waiting : ∀ parent ∈ position.waiting,
    world.responder.responderInflight parent.parentRequestId = none
  distinct : (position.opened.map PendingSend.parentRequestId).Nodup

end Position

/-- No datagram of the id is on its way to the responder and the responder keeps no
parent under it. -/
structure FreshId (world : World) (requestId : Nat) : Prop where
  travelling : ∀ request ∈ world.travelling, request.parentRequestId ≠ requestId
  responder : world.responder.responderInflight requestId = none

instance (world : World) (requestId : Nat) : Decidable (FreshId world requestId) :=
  decidable_of_iff
    ((∀ request ∈ world.travelling, request.parentRequestId ≠ requestId) ∧
      world.responder.responderInflight requestId = none)
    ⟨fun fresh => ⟨fresh.1, fresh.2⟩, fun fresh => ⟨fresh.travelling, fresh.responder⟩⟩

/-! ## Datagrams against the checks -/

section Checks

variable {payloadBytes : Nat} {parent : PendingSend} {request : RequestDatagram}
  {handled left : List RequestDatagram}

theorem consecutive_append {index offset : Nat} {before after : List RequestDatagram} :
    PendingSend.Consecutive index offset (before ++ after) ↔
      PendingSend.Consecutive index offset before ∧
        PendingSend.Consecutive (index + before.length)
          (offset + PendingSend.payloadLengths before) after := by
  induction before generalizing index offset with
  | nil => simp [PendingSend.Consecutive, PendingSend.payloadLengths]
  | cons request before induction =>
      simp only [List.cons_append, PendingSend.Consecutive, induction, and_assoc,
        PendingSend.payloadLengths, List.map_cons, List.sum_cons, List.length_cons,
        Nat.add_assoc, Nat.add_comm 1]

/-- The datagram that follows those handled: its index, offset and length. -/
theorem datagram_after (built : parent.Built payloadBytes) (nonzero : parent.totalLength ≠ 0)
    (split : parent.datagrams payloadBytes = handled ++ request :: left) :
    request.payloadIndex = handled.length ∧
      request.payloadOffset = PendingSend.payloadLengths handled ∧
      0 < request.payloadLength ∧
      PendingSend.payloadLengths handled + request.payloadLength +
        PendingSend.payloadLengths left = parent.totalLength ∧
      handled.length + 1 + left.length = parent.payloadCount := by
  obtain ⟨length, consecutive, covered, -⟩ := built.split nonzero
  rw [split] at length consecutive covered
  obtain ⟨-, index, offset, positive, -⟩ := consecutive_append.mp consecutive
  simp only [PendingSend.payloadLengths, List.map_append, List.map_cons, List.sum_append,
    List.sum_cons, List.length_append, List.length_cons] at *
  exact ⟨by omega, by omega, positive, by omega, by omega⟩

/-- A parent has a datagram after the first only if it is not empty. -/
theorem totalLength_ne_zero_of_after (built : parent.Built payloadBytes)
    (started : handled ≠ [])
    (split : parent.datagrams payloadBytes = handled ++ request :: left) :
    parent.totalLength ≠ 0 := by
  intro zero
  rw [(built.split_zero zero).1] at split
  cases handled with
  | nil => exact started rfl
  | cons first handled => cases handled <;> simp at split

theorem validFirst_datagram (built : parent.Built payloadBytes) :
    validFirst (parent.datagram payloadBytes) = true := by
  have carries := PendingSend.carries_datagram payloadBytes parent
  by_cases zero : parent.totalLength = 0
  · obtain ⟨-, count, index, offset, length⟩ := built.split_zero zero
    simp [validFirst, index, offset, length, carries.payloadCount, carries.parentTotalLength,
      count, zero]
  · have split : parent.datagrams payloadBytes = [] ++ _ := built.pending.step.1
    obtain ⟨index, offset, positive, covered, -⟩ := datagram_after built zero split
    have count := built.payloadCount_ne_zero zero
    have bounded := built.payloadCount_le
    simp only [validFirst, index, offset, carries.payloadCount, carries.parentTotalLength,
      decide_eq_true_eq, List.length_nil, PendingSend.payloadLengths, List.map_nil,
      List.sum_nil, true_and] at covered ⊢
    exact .inr ⟨count, zero, by omega, by omega, bounded⟩

theorem validFirst_after (built : parent.Built payloadBytes) (started : handled ≠ [])
    (split : parent.datagrams payloadBytes = handled ++ request :: left) :
    validFirst request = false := by
  obtain ⟨index, -⟩ :=
    datagram_after built (totalLength_ne_zero_of_after built started split) split
  have nonempty := List.length_pos_of_ne_nil started
  simp only [validFirst, decide_eq_false_iff_not]
  omega

theorem validPayload_of_matches (built : parent.Built payloadBytes)
    (nonzero : parent.totalLength ≠ 0)
    (split : parent.datagrams payloadBytes = handled ++ request :: left)
    {inflight : ResponderInflight} {target : Nat}
    (matched : Matches inflight parent target handled) :
    validPayload request inflight = true := by
  have member : request ∈ parent.datagrams payloadBytes := by
    rw [split]
    exact List.mem_append_right _ List.mem_cons_self
  have carries := PendingSend.carries_of_mem member
  obtain ⟨index, offset, positive, covered, count⟩ := datagram_after built nonzero split
  simp only [validPayload, carries.sourceQpNum, carries.targetQpNum, carries.opcode,
    carries.remoteAddress, carries.rkey, carries.immediateData, carries.parentTotalLength,
    carries.payloadCount, matched.sourceQpNum, matched.targetQpNum, matched.opcode,
    matched.remoteAddress, matched.rkey, matched.immediateData, matched.parentTotalLength,
    matched.payloadCount, matched.nextPayloadIndex, matched.nextPayloadOffset, index, offset,
    true_and, decide_eq_true_eq]
  exact .inr ⟨by omega, by omega, by omega, by omega, by omega⟩

end Checks

/-! ## The next datagram -/

section Next

variable {position : Position}

/-- The datagrams on their way and those still to be sent are the ones that are not
disposed of. -/
theorem Position.Describes.future (describes : position.Describes world)
    (accounted : StreamAccounted world) (conserved : Conserved world) :
    world.travelling ++ world.unsent =
      position.current.toList.flatMap Current.left ++
        position.waiting.flatMap (PendingSend.datagrams world.requester.payloadBytes) := by
  have sent := accounted.sent
  rw [conserved.requests, describes.disposed, describes.issued] at sent
  have finished : (position.finished.flatMap fun decided =>
      expectedDisposals decided.2
        (decided.1.datagrams world.requester.payloadBytes)).map Prod.fst =
        (position.finished.map Prod.fst).flatMap
          (PendingSend.datagrams world.requester.payloadBytes) := by
    simp only [List.map_flatMap, expectedDisposals_fst, List.flatMap_map]
  rw [List.map_append, finished, List.flatMap_append, List.append_assoc,
    List.append_assoc] at sent
  have rest := List.append_cancel_left sent
  cases worked : position.current with
  | none => simpa [Position.opened, worked] using rest
  | some current =>
      obtain ⟨split, -⟩ := describes.current current worked
      simp only [Position.opened, worked, Option.toList_some, List.flatMap_cons,
        List.flatMap_nil, List.append_nil, expectedDisposals_fst, List.map_cons, List.map_nil,
        List.singleton_append, split, List.append_assoc] at rest ⊢
      exact List.append_cancel_left rest

/-- The pending request is the first datagram of the first waiting parent, or the next
one of the parent worked on. -/
theorem Position.Describes.next_datagram (describes : position.Describes world)
    (accounted : StreamAccounted world) (conserved : Conserved world)
    {request : RequestDatagram} (pending : world.responder.pendingRequest = some request) :
    (position.current = none ∧ ∃ parent waiting rest,
      position.waiting = parent :: waiting ∧
        request = parent.datagram world.requester.payloadBytes ∧
        parent.datagrams world.requester.payloadBytes = request :: rest) ∨
      ∃ current rest, position.current = some current ∧ current.left = request :: rest := by
  have future := describes.future accounted conserved
  rw [World.travelling, pending, Option.toList_some, List.append_assoc,
    List.singleton_append] at future
  cases worked : position.current with
  | none =>
      refine .inl ⟨rfl, ?_⟩
      rw [worked] at future
      cases waits : position.waiting with
      | nil =>
          rw [waits] at future
          cases future
      | cons parent waiting =>
          have member : parent ∈ world.issued := by
            rw [describes.issued, Position.opened, waits]
            simp
          have split := (accounted.built parent member).pending.step.1
          rw [waits, List.flatMap_cons, split] at future
          injection future with first
          exact ⟨parent, waiting, _, rfl, first, by rw [first]; exact split⟩
  | some current =>
      refine .inr ⟨current, ?_⟩
      rw [worked] at future
      cases leaves : current.left with
      | nil => exact absurd leaves (describes.current current worked).2.1
      | cons first rest =>
          rw [Option.toList_some, List.flatMap_cons, leaves] at future
          injection future with first
          exact ⟨rest, rfl, by rw [first]⟩

end Next

/-! ## Moving on -/

namespace Position

/-- The position when `handled` of the datagrams of a parent are disposed of and `left`
remain. -/
def reached (finished : List (PendingSend × Except Errno Nat)) (current : Current)
    (waiting : List PendingSend) : Position :=
  if current.left = [] then
    { finished := finished ++ [(current.parent, current.decision)], current := none, waiting }
  else
    { finished, current := some current, waiting }

theorem reached_describes {finished : List (PendingSend × Except Errno Nat)}
    {current : Current} {waiting : List PendingSend}
    (issued : world.issued = finished.map Prod.fst ++ current.parent :: waiting)
    (decisions : world.decisions =
      (finished ++ [(current.parent, current.decision)]).map fun decided =>
        (decided.1.datagram world.requester.payloadBytes, decided.2))
    (disposed : world.disposed =
      (finished.flatMap fun decided =>
          expectedDisposals decided.2 (decided.1.datagrams world.requester.payloadBytes)) ++
        expectedDisposals current.decision current.handled)
    (split : current.parent.datagrams world.requester.payloadBytes =
      current.handled ++ current.left)
    (tracked : current.left ≠ [] → current.Tracked world)
    (unseen : ∀ parent ∈ waiting,
      world.responder.responderInflight parent.parentRequestId = none)
    (distinct : ((current.parent :: waiting).map PendingSend.parentRequestId).Nodup) :
    (reached finished current waiting).Describes world := by
  unfold reached
  by_cases empty : current.left = []
  · rw [if_pos empty]
    rw [empty, List.append_nil] at split
    refine ⟨?_, ?_, ?_, nofun, unseen, (List.nodup_cons.mp distinct).2⟩
    · simpa [opened] using issued
    · simpa [decided] using decisions
    · simpa [split] using disposed
  · rw [if_neg empty]
    refine ⟨issued, decisions, ?_, ?_, unseen, distinct⟩
    · simpa using disposed
    · rintro other ⟨⟩
      exact ⟨split, empty, tracked empty⟩

namespace Describes

variable {position : Position}

/-- A step that records nothing about datagrams keeps the position if it keeps what the
in-flight map says about the open parents. -/
theorem congr (describes : position.Describes world)
    (issued : next.issued = world.issued) (decisions : next.decisions = world.decisions)
    (disposed : next.disposed = world.disposed)
    (payloadBytes : next.requester.payloadBytes = world.requester.payloadBytes)
    (tracked : ∀ current ∈ position.current, current.Tracked world → current.Tracked next)
    (unseen : ∀ parent ∈ position.waiting,
      world.responder.responderInflight parent.parentRequestId = none →
        next.responder.responderInflight parent.parentRequestId = none) :
    position.Describes next where
  issued := by rw [issued, describes.issued]
  decisions := by rw [decisions, payloadBytes, describes.decisions]
  disposed := by rw [disposed, payloadBytes, describes.disposed]
  current := by
    intro current member
    obtain ⟨split, left, tracks⟩ := describes.current current member
    rw [payloadBytes]
    exact ⟨split, left, tracked current member tracks⟩
  waiting := fun parent member => unseen parent member (describes.waiting parent member)
  distinct := describes.distinct

/-- Every parent with a datagram that is not disposed of keeps its id on its way. -/
theorem opened_travelling (describes : position.Describes world)
    (accounted : StreamAccounted world) (conserved : Conserved world)
    (idle : world.requester.pendingSend = none) {parent : PendingSend}
    (member : parent ∈ position.opened) :
    ∃ request ∈ world.travelling, request.parentRequestId = parent.parentRequestId := by
  have future := describes.future accounted conserved
  have unsent : world.unsent = [] := by rw [World.unsent, idle]
  rw [unsent, List.append_nil] at future
  rw [future]
  rcases List.mem_append.mp member with member | member
  · obtain ⟨current, worked, rfl⟩ := List.mem_map.mp member
    rw [Option.mem_toList] at worked
    obtain ⟨split, left, -⟩ := describes.current current worked
    obtain ⟨request, rest, leaves⟩ := List.exists_cons_of_ne_nil left
    have carried : request ∈ current.parent.datagrams world.requester.payloadBytes := by
      rw [split, leaves]
      exact List.mem_append_right _ List.mem_cons_self
    refine ⟨request, List.mem_append_left _ ?_, (PendingSend.carries_of_mem carried).1⟩
    exact List.mem_flatMap.mpr ⟨current, Option.mem_toList.mpr worked, by simp [leaves]⟩
  · have issued : parent ∈ world.issued := by
      rw [describes.issued, opened]
      simp [member]
    have split := (accounted.built parent issued).pending.step.1
    refine ⟨parent.datagram world.requester.payloadBytes, List.mem_append_right _ ?_,
      (PendingSend.carries_datagram _ parent).1⟩
    exact List.mem_flatMap.mpr ⟨parent, member, by rw [split]; exact List.mem_cons_self⟩

/-- A parent issued under a fresh id waits behind the others. -/
theorem issue (describes : position.Describes world) (accounted : StreamAccounted world)
    (conserved : Conserved world) (idle : world.requester.pendingSend = none)
    {parent : PendingSend} (fresh : FreshId world parent.parentRequestId)
    (issued : next.issued = world.issued ++ [parent])
    (decisions : next.decisions = world.decisions) (disposed : next.disposed = world.disposed)
    (payloadBytes : next.requester.payloadBytes = world.requester.payloadBytes)
    (responder : next.responder = world.responder) :
    { position with waiting := position.waiting ++ [parent] : Position }.Describes next := by
  have tracked : ∀ current ∈ position.current, current.Tracked world → current.Tracked next := by
    intro current _ tracks
    unfold Current.Tracked at tracks ⊢
    rwa [responder]
  refine ⟨?_, ?_, ?_, ?_, ?_, ?_⟩
  · simp [issued, describes.issued, opened]
  · rw [decisions, payloadBytes]
    exact describes.decisions
  · rw [disposed, payloadBytes]
    exact describes.disposed
  · intro current member
    obtain ⟨split, left, tracks⟩ := describes.current current member
    rw [payloadBytes]
    exact ⟨split, left, tracked current member tracks⟩
  · intro other member
    rw [responder]
    rcases List.mem_append.mp member with member | member
    · exact describes.waiting other member
    · rw [List.mem_singleton.mp member]
      exact fresh.responder
  · have unused : parent.parentRequestId ∉ position.opened.map PendingSend.parentRequestId := by
      intro used
      obtain ⟨other, member, same⟩ := List.mem_map.mp used
      obtain ⟨request, travels, carried⟩ :=
        describes.opened_travelling accounted conserved idle member
      exact fresh.travelling request travels (carried.trans same)
    have renamed : ({ position with waiting := position.waiting ++ [parent] : Position }).opened =
        position.opened ++ [parent] := by
      simp [opened]
    rw [renamed, List.map_append, List.map_singleton]
    exact List.nodup_append.mpr ⟨describes.distinct, List.nodup_singleton _, by
      intro first member second last
      rw [List.mem_singleton.mp last]
      exact fun same => unused (same ▸ member)⟩

/-- One more datagram of the parent worked on is disposed of. -/
theorem advance (describes : position.Describes world) {current : Current}
    (worked : position.current = some current) {request : RequestDatagram}
    {rest : List RequestDatagram} (leaves : current.left = request :: rest)
    {disposal : Disposal}
    (expected : expectedDisposals current.decision (current.handled ++ [request]) =
      expectedDisposals current.decision current.handled ++ [(request, disposal)])
    (issued : next.issued = world.issued) (decisions : next.decisions = world.decisions)
    (disposed : next.disposed = world.disposed ++ [(request, disposal)])
    (payloadBytes : next.requester.payloadBytes = world.requester.payloadBytes)
    (tracked : rest ≠ [] → Current.Tracked
      { current with handled := current.handled ++ [request], left := rest } next)
    (unseen : ∀ parent ∈ position.waiting,
      next.responder.responderInflight parent.parentRequestId = none) :
    (reached position.finished
      { current with handled := current.handled ++ [request], left := rest }
      position.waiting).Describes next := by
  obtain ⟨split, -⟩ := describes.current current worked
  have distinct := describes.distinct
  have oldIssued := describes.issued
  have oldDecisions := describes.decisions
  have oldDisposed := describes.disposed
  simp only [opened, decided, worked, Option.toList_some, List.map_cons, List.map_nil,
    List.singleton_append, List.flatMap_cons, List.flatMap_nil, List.append_nil] at *
  apply reached_describes
  · rw [issued, oldIssued]
  · rw [decisions, oldDecisions, payloadBytes]
  · rw [disposed, oldDisposed, expected, payloadBytes, List.append_assoc]
  · rw [payloadBytes, split, leaves, List.append_assoc, List.singleton_append]
  · exact tracked
  · exact unseen
  · exact distinct

/-- The responder looks up the first waiting parent. -/
theorem start (describes : position.Describes world) (idle : position.current = none)
    {parent : PendingSend} {waiting : List PendingSend}
    (waits : position.waiting = parent :: waiting) (decision : Except Errno Nat)
    (handled left : List RequestDatagram)
    (split : parent.datagrams world.requester.payloadBytes = handled ++ left)
    (issued : next.issued = world.issued)
    (decisions : next.decisions =
      world.decisions ++ [(parent.datagram world.requester.payloadBytes, decision)])
    (disposed : next.disposed = world.disposed ++ expectedDisposals decision handled)
    (payloadBytes : next.requester.payloadBytes = world.requester.payloadBytes)
    (tracked : left ≠ [] → Current.Tracked { parent, decision, handled, left } next)
    (unseen : ∀ parent ∈ waiting,
      next.responder.responderInflight parent.parentRequestId = none) :
    (reached position.finished { parent, decision, handled, left } waiting).Describes next := by
  have distinct := describes.distinct
  have oldIssued := describes.issued
  have oldDecisions := describes.decisions
  have oldDisposed := describes.disposed
  simp only [opened, decided, idle, waits, Option.toList_none, List.map_nil, List.nil_append,
    List.flatMap_nil, List.append_nil] at *
  apply reached_describes
  · rw [issued, oldIssued]
  · rw [decisions, oldDecisions, payloadBytes, List.map_append]
    rfl
  · rw [disposed, oldDisposed, payloadBytes]
  · rw [payloadBytes, split]
  · exact tracked
  · exact unseen
  · exact distinct

end Describes

end Position

end Ugdr.Worker
