import Ugdr.Control.QpTransitions
import Ugdr.Control.RecordOrigin

/-! # The states of a queue pair

A queue pair is stored in RESET, INIT, RTS or ERR and moves between them only as the
connection contract says; its peer and retry attributes are stored once, together with
the move to RTS. The answers of `modify_qp` and `connect_qp` are those of the contract.
-/

namespace Ugdr.Control

open GenerationRegistry Wire

/-! ## The documented order of failures -/

/-- What can be wrong with a connect request that decodes. -/
inductive ConnectDefect
  | handle
  | mask
  | number
  | retryEncoding
  | otherPeer
  | localState
  | unknownNumber
  | remoteState
  deriving DecidableEq, Repr

namespace ConnectDefect

def errno : ConnectDefect → Errno
  | handle => .einval
  | mask => .einval
  | number => .einval
  | retryEncoding => .einval
  | otherPeer => .ebusy
  | localState => .einval
  | unknownNumber => .enoent
  | remoteState => .einval

def order : List ConnectDefect :=
  [handle, mask, number, retryEncoding, otherPeer, localState, unknownNumber, remoteState]

/-- What each defect says about the live queue pairs and the request. -/
def Present (qps : List (Entry QpRecord)) (session : OwnerSessionId) (identity : Nat)
    (remoteQpNum : Nat) (attributes : QpAttributes) (mask : UInt32) : ConnectDefect → Prop
  | handle => ∀ qp ∈ qps, ¬ (qp.identity = identity ∧ qp.owner = session)
  | .mask => mask ≠ qpMaskTimeout ||| qpMaskRetryCount ||| qpMaskRnrRetry ||| qpMaskMinRnrTimer
  | number => remoteQpNum = 0
  | retryEncoding => 7 < attributes.retryCount ∨ 7 < attributes.rnrRetry ∨
      31 < attributes.timeout ∨ 31 < attributes.minRnrTimer
  | otherPeer => ∃ qp ∈ qps, qp.identity = identity ∧ qp.owner = session ∧
      qp.record.peerQpNum ≠ 0 ∧ qp.record.peerQpNum ≠ remoteQpNum
  | localState => ∃ qp ∈ qps, qp.identity = identity ∧ qp.owner = session ∧
      qp.record.state ≠ qpStateInit
  | unknownNumber => ∀ remote ∈ qps, remote.record.qpNum ≠ remoteQpNum
  | remoteState => ∃ remote ∈ qps, remote.record.qpNum = remoteQpNum ∧
      (remote.record.qpType ≠ qpTypeRc ∨
        remote.record.state ∉ [qpStateInit, qpStateRtr, qpStateRts])

/-- The answer names the first defect of the list that is present. -/
inductive Reported (present : ConnectDefect → Prop) : List ConnectDefect → Status → Prop
  | sound : Reported present [] none
  | here {defect : ConnectDefect} {later : List ConnectDefect} (found : present defect) :
      Reported present (defect :: later) (some defect.errno)
  | later {defect : ConnectDefect} {later : List ConnectDefect} {status : Status}
      (absent : ¬ present defect) (reported : Reported present later status) :
      Reported present (defect :: later) status

end ConnectDefect

namespace QpService

open ObjectGraph

variable {service : QpService} {session : OwnerSessionId} {request : ControlRequest}
  {environment : Environment} {event : Event}

theorem qp_entry_unique (valid : service.Valid) {left right : Entry QpRecord}
    (leftMember : left ∈ service.qps.entries) (rightMember : right ∈ service.qps.entries)
    (same : left.identity = right.identity) : left = right :=
  entry_unique valid.qps leftMember rightMember same

theorem qpNum_unique (valid : service.Valid) {left right : Entry QpRecord}
    (leftMember : left ∈ service.qps.entries) (rightMember : right ∈ service.qps.entries)
    (same : left.record.qpNum = right.record.qpNum) : left = right := by
  have index := (accounted_of_valid valid).qpNumIndex
  have found := (index _ _).mpr ⟨left, leftMember, rfl, rfl⟩
  have again := (index _ _).mpr ⟨right, rightMember, same.symm, rfl⟩
  rw [found] at again
  exact qp_entry_unique valid leftMember rightMember (Option.some.inj again)

theorem validRetryAttributes_eq_false_iff (attributes : QpAttributes) :
    validRetryAttributes attributes = false ↔
      7 < attributes.retryCount ∨ 7 < attributes.rnrRetry ∨ 31 < attributes.timeout ∨
        31 < attributes.minRnrTimer := by
  rw [validRetryAttributes, decide_eq_false_iff_not]
  omega

theorem connect_reports (valid : service.Valid)
    (method : ControlMethod.ofCode request.method = some .connectQp)
    (shaped : emptyShapeExceptPayload request = true) {remoteQpNum : Nat}
    {attributes : QpAttributes} {mask : UInt32}
    (decoded : decodeConnectPayload request.payload = .ok (remoteQpNum, attributes, mask)) :
    ConnectDefect.Reported
      (ConnectDefect.Present service.qps.entries session request.objectIdentity remoteQpNum
        attributes mask)
      ConnectDefect.order (handle service session request environment).1.status := by
  simp only [handle, method, handleConnectQp, shaped, decoded, Bool.true_eq_false, if_false]
  cases resolved : service.qps.resolve session request.objectIdentity with
  | none =>
      refine .here ?_
      rintro ⟨identity, owner, qp⟩ member ⟨rfl, rfl⟩
      rw [(resolve_eq_some_iff valid.qps (by decide)).mpr member] at resolved
      cases resolved
  | some qp =>
      have member := mem_qps valid resolved
      have own : ∀ other ∈ service.qps.entries, other.identity = request.objectIdentity →
          other.record = qp := by
        intro other live here
        rw [qp_entry_unique valid live member here]
      refine .later (fun missing => missing _ member ⟨rfl, rfl⟩) ?_
      dsimp only
      -- The three checks on the request itself give the same error.
      by_cases unsupported : mask ≠ qpConnectMask
      · rw [if_pos (.inr (.inl unsupported))]
        exact .here unsupported
      refine .later unsupported ?_
      by_cases zero : remoteQpNum = 0
      · rw [if_pos (.inl zero)]
        exact .here zero
      refine .later zero ?_
      by_cases encoding : validRetryAttributes attributes = false
      · rw [if_pos (.inr (.inr encoding))]
        exact .here ((validRetryAttributes_eq_false_iff attributes).mp encoding)
      refine .later (mt (validRetryAttributes_eq_false_iff attributes).mpr encoding) ?_
      rw [if_neg (by tauto)]
      by_cases bound : qp.peerQpNum ≠ 0 ∧ qp.peerQpNum ≠ remoteQpNum
      · rw [if_pos bound]
        exact .here ⟨_, member, rfl, rfl, bound⟩
      rw [if_neg bound]
      refine .later ?otherPeer ?_
      case otherPeer =>
        rintro ⟨other, live, here, -, peer⟩
        rw [own other live here] at peer
        exact bound peer
      by_cases ready : qp.state ≠ qpStateInit
      · rw [if_pos ready]
        exact .here ⟨_, member, rfl, rfl, ready⟩
      rw [if_neg ready]
      refine .later ?localState ?_
      case localState =>
        rintro ⟨other, live, here, -, state⟩
        rw [own other live here] at state
        exact ready state
      cases indexed : service.qpNumIndex remoteQpNum with
      | none =>
          refine .here fun remote live number => ?_
          rw [((accounted_of_valid valid).qpNumIndex _ _).mpr ⟨remote, live, number, rfl⟩]
            at indexed
          cases indexed
      | some remoteIdentity =>
          obtain ⟨remote, live, number, rfl⟩ :=
            ((accounted_of_valid valid).qpNumIndex _ _).mp indexed
          have found : service.qps.resolveAny remote.identity = some remote.record :=
            (resolveAny_eq_some_iff valid.qps (by decide)).mpr ⟨remote.owner, live⟩
          refine .later (fun unknown => unknown remote live number) ?_
          simp only [found]
          by_cases refuses : remote.record.qpType ≠ qpTypeRc ∨
              (remote.record.state ≠ qpStateInit ∧ remote.record.state ≠ qpStateRtr ∧
                remote.record.state ≠ qpStateRts)
          · rw [if_pos refuses]
            exact .here ⟨remote, live, number, by simpa using refuses⟩
          · rw [if_neg refuses]
            refine .later ?remoteState .sound
            rintro ⟨other, otherLive, otherNumber, refused⟩
            rw [qpNum_unique valid otherLive live (otherNumber.trans number.symm)] at refused
            exact refuses (by simpa using refused)

/-! ## The stored state -/

theorem QpTransition.staged {identity : Nat} {before after : QpRecord}
    (transition : QpTransition event identity before after) (staged : Staged before) :
    Staged after := by
  cases transition with
  | kept => exact staged
  | initialized asked target allowed state wanted access =>
      refine .init rfl ?_
      cases staged with
      | reset _ empty => exact empty
      | init other _ => rw [state] at other; cases other
      | rts other _ => rw [state] at other; cases other
      | err other => rw [state] at other; cases other
  | connected asked target method decoded state number => exact .rts rfl number
  | failed asked target allowed state wanted => exact .err rfl

theorem QpOrigin.staged {after : Entry QpRecord} (origin : QpOrigin service event after)
    (staged : service.QpsStaged) : Staged after.record := by
  cases origin with
  | created fresh state binding available number advanced => exact .reset state binding
  | moved before member identity owner transition =>
      exact transition.staged (staged before member)

theorem run_staged {initial : QpService} (valid : initial.Valid) (staged : initial.QpsStaged)
    (events : List Event) : (Execution.run step initial events).QpsStaged := by
  refine run_records ?_ valid staged fun _ _ => trivial
  intro service event valid _ staged after member
  exact (step_origin valid staged event member).staged staged

theorem create_staged (catalog : List DeviceDescriptor) : (create catalog).QpsStaged :=
  nofun

/-! ## The binding is stored once -/

/-- The numbers of the queue pairs whose peer or retry attributes an event changes. -/
def newlyBound (service : QpService) (event : Event) : List Nat :=
  ((service.step event).qps.entries.filter fun after =>
    service.qps.entries.any fun before =>
      before.identity = after.identity ∧ before.record.binding ≠ after.record.binding).map
    fun after => after.record.qpNum

/-- The same for a run, in the order of the events. -/
def boundAlong (service : QpService) : List Event → List Nat
  | [] => []
  | event :: events => newlyBound service event ++ boundAlong (service.step event) events

/-- A queue pair moves to RTS whenever its binding changes. -/
theorem QpTransition.binding {identity : Nat} {before after : QpRecord}
    (transition : QpTransition event identity before after)
    (changed : before.binding ≠ after.binding) :
    before.state = qpStateInit ∧ after.state = qpStateRts := by
  cases transition with
  | kept => exact absurd rfl changed
  | initialized asked target allowed state wanted access => exact absurd rfl changed
  | connected asked target method decoded state number => exact ⟨state, rfl⟩
  | failed asked target allowed state wanted => exact absurd rfl changed

/-- A number that was given out and whose queue pair, if it is still there, has been
connected. -/
structure Spent (number : Nat) (service : QpService) : Prop where
  given : service.nextQpNum = 0 ∨ number < service.nextQpNum
  connected : ∀ entry ∈ service.qps.entries, entry.record.qpNum = number →
    entry.record.state = qpStateRts ∨ entry.record.state = qpStateErr

theorem given_step (valid : service.Valid) {number : Nat}
    (given : service.nextQpNum = 0 ∨ number < service.nextQpNum) :
    (service.step event).nextQpNum = 0 ∨ number < (service.step event).nextQpNum := by
  have bounded := valid.nextQpNum
  rcases step_nextQpNum valid event with same | ⟨available, next⟩
  · rwa [same]
  · rw [next]
    rcases given with none | below
    · exact absurd none available
    · by_cases last : service.nextQpNum + 1 = 2 ^ 32
      · exact .inl (by rw [last, Nat.mod_self])
      · rw [Nat.mod_eq_of_lt (by omega)]
        omega

theorem QpTransition.stays_connected {identity : Nat} {before after : QpRecord}
    (transition : QpTransition event identity before after)
    (connected : before.state = qpStateRts ∨ before.state = qpStateErr) :
    after.state = qpStateRts ∨ after.state = qpStateErr := by
  cases transition with
  | kept => exact connected
  | initialized asked target allowed state wanted access =>
      rw [state] at connected
      exact absurd connected (by decide)
  | connected asked target method decoded state number => exact .inl rfl
  | failed asked target allowed state wanted => exact .inr rfl

theorem Spent.step {number : Nat} (spent : Spent number service) (valid : service.Valid)
    (staged : service.QpsStaged) (event : Event) : Spent number (service.step event) where
  given := given_step valid spent.given
  connected := by
    intro after member named
    cases step_origin valid staged event member with
    | created fresh state binding available given advanced =>
        have below := spent.given
        rw [← named, given] at below
        omega
    | moved before live identity owner transition =>
        rw [transition.qpNum] at named
        exact transition.stays_connected (spent.connected before live named)

/-- The queue pair behind a newly bound number, before and after the event. -/
theorem mem_newlyBound (valid : service.Valid) (staged : service.QpsStaged) {number : Nat}
    (member : number ∈ newlyBound service event) :
    ∃ before ∈ service.qps.entries, ∃ after ∈ (service.step event).qps.entries,
      after.record.qpNum = number ∧ before.record.qpNum = number ∧
        before.record.state = qpStateInit ∧ after.record.state = qpStateRts := by
  obtain ⟨after, filtered, named⟩ := List.mem_map.mp member
  obtain ⟨live, found⟩ := List.mem_filter.mp filtered
  obtain ⟨before, beforeLive, changed⟩ := List.any_eq_true.mp found
  obtain ⟨identity, changed⟩ := of_decide_eq_true changed
  cases step_origin valid staged event live with
  | created fresh state binding available given advanced =>
      exact absurd (List.mem_map.mpr ⟨before, beforeLive, identity⟩) fresh
  | moved origin originLive originIdentity owner transition =>
      rw [qp_entry_unique valid originLive beforeLive
        (originIdentity.symm.trans identity.symm)] at transition
      obtain ⟨initial, final⟩ := transition.binding changed
      exact ⟨before, beforeLive, after, live, named, transition.qpNum ▸ named, initial, final⟩

theorem newlyBound_spent (valid : service.Valid) (staged : service.QpsStaged) {number : Nat}
    (member : number ∈ newlyBound service event) : Spent number (service.step event) := by
  obtain ⟨before, beforeLive, after, live, named, beforeNamed, -, final⟩ :=
    mem_newlyBound valid staged member
  refine ⟨given_step valid ?_, fun other otherLive otherNamed => ?_⟩
  · exact valid.consistent.qpNumsBelow.imp_right fun below => beforeNamed ▸ below _ beforeLive
  · rw [qpNum_unique (step_valid valid event) otherLive live (otherNamed.trans named.symm)]
    exact .inl final

theorem Spent.not_mem_newlyBound {number : Nat} (spent : Spent number service)
    (valid : service.Valid) (staged : service.QpsStaged) :
    number ∉ newlyBound service event := by
  intro member
  obtain ⟨before, live, after, -, -, named, initial, -⟩ := mem_newlyBound valid staged member
  have connected := spent.connected before live named
  rw [initial] at connected
  exact absurd connected (by decide)

theorem Spent.not_mem_boundAlong {number : Nat} (events : List Event)
    (spent : Spent number service) (valid : service.Valid) (staged : service.QpsStaged) :
    number ∉ boundAlong service events := by
  induction events generalizing service with
  | nil => exact List.not_mem_nil
  | cons event events induction =>
      rw [boundAlong, List.mem_append, not_or]
      exact ⟨spent.not_mem_newlyBound valid staged,
        induction (spent.step valid staged event) (step_valid valid event)
          (run_staged valid staged [event])⟩

theorem newlyBound_nodup (valid : service.Valid) (event : Event) :
    (newlyBound service event).Nodup := by
  have after := step_valid valid event
  have entries : (service.step event).qps.entries.Nodup :=
    (entries_identity_nodup after.qps).of_map _
  refine (List.nodup_map_iff_inj_on (entries.filter _)).mpr ?_
  intro left leftMember right rightMember same
  exact qpNum_unique after (List.mem_of_mem_filter leftMember)
    (List.mem_of_mem_filter rightMember) same

theorem boundAlong_nodup (valid : service.Valid) (staged : service.QpsStaged)
    (events : List Event) : (boundAlong service events).Nodup := by
  induction events generalizing service with
  | nil => exact List.nodup_nil
  | cons event events induction =>
      have stagedAfter := run_staged valid staged [event]
      rw [boundAlong, List.nodup_append']
      refine ⟨newlyBound_nodup valid event, induction (step_valid valid event) stagedAfter, ?_⟩
      intro number now later
      exact (newlyBound_spent valid staged now).not_mem_boundAlong events
        (step_valid valid event) stagedAfter later

/-! ## The contract -/

/-- What the contract says of the stored states and of the move that comes next. -/
structure MovesByContract (service : QpService) (event : Event) : Prop where
  stored : ∀ qp ∈ service.qps.entries,
    qp.record.state ∈ [qpStateReset, qpStateInit, qpStateRts, qpStateErr] ∧
      (qp.record.state = qpStateRts → qp.record.peerQpNum ≠ 0)
  origin : ∀ after ∈ (service.step event).qps.entries, QpOrigin service event after
  terminal : ∀ before ∈ service.qps.entries, ∀ after ∈ (service.step event).qps.entries,
    after.identity = before.identity → before.record.state = qpStateErr →
      after.record = before.record
  bound : ∀ before ∈ service.qps.entries, ∀ after ∈ (service.step event).qps.entries,
    after.identity = before.identity → before.record.binding ≠ after.record.binding →
      before.record.state = qpStateInit ∧ after.record.state = qpStateRts

/-- What the contract says of the answer to a request and of the objects it touches. -/
structure AnswersByContract (service : QpService) (session : OwnerSessionId)
    (request : ControlRequest) (environment : Environment) : Prop where
  /-- Connecting stores into the local queue pair only. -/
  connectLocal : ControlMethod.ofCode request.method = some .connectQp →
    ∀ qp : Entry QpRecord, qp.identity ≠ request.objectIdentity →
      (qp ∈ (handle service session request environment).2.qps.entries ↔
        qp ∈ service.qps.entries)
  failure : (handle service session request environment).1.status ≠ none →
    ∀ qp : Entry QpRecord,
      qp ∈ (handle service session request environment).2.qps.entries ↔
        qp ∈ service.qps.entries
  /-- The two state words of a snapshot. -/
  query : ControlMethod.ofCode request.method = some .queryQp →
    (handle service session request environment).1.status = none →
      ∃ qp, ⟨request.objectIdentity, session, qp⟩ ∈ service.qps.entries ∧
        ∀ offset ∈ [48, 52],
          (read 4 ((handle service session request environment).1.payload.drop offset)).map
            Prod.fst = some qp.state
  unsupported : ∀ (qp : QpRecord) (attributes : QpAttributes) (mask : UInt32),
    ControlMethod.ofCode request.method = some .modifyQp →
    emptyShapeExceptPayload request = true →
    decodeModifyPayload request.payload = .ok (attributes, mask) →
    ⟨request.objectIdentity, session, qp⟩ ∈ service.qps.entries →
    mask &&& qpMaskState ≠ 0 →
    mask &&& ~~~(qpMaskState ||| qpMaskCurrentState ||| qpMaskAccess) = 0 →
    attributes.state = qpStateSqd ∨ attributes.state = qpStateSqe →
      (handle service session request environment).1.status = some .eopnotsupp
  precedence : ∀ (remoteQpNum : Nat) (attributes : QpAttributes) (mask : UInt32),
    ControlMethod.ofCode request.method = some .connectQp →
    emptyShapeExceptPayload request = true →
    decodeConnectPayload request.payload = .ok (remoteQpNum, attributes, mask) →
      ConnectDefect.Reported
        (ConnectDefect.Present service.qps.entries session request.objectIdentity remoteQpNum
          attributes mask)
        ConnectDefect.order (handle service session request environment).1.status

theorem Staged.stored {qp : QpRecord} (staged : Staged qp) :
    qp.state ∈ [qpStateReset, qpStateInit, qpStateRts, qpStateErr] ∧
      (qp.state = qpStateRts → qp.peerQpNum ≠ 0) := by
  cases staged with
  | reset state _ => rw [state]; exact ⟨by decide, fun other => absurd other (by decide)⟩
  | init state _ => rw [state]; exact ⟨by decide, fun other => absurd other (by decide)⟩
  | rts state bound => rw [state]; exact ⟨by decide, fun _ => bound⟩
  | err state => rw [state]; exact ⟨by decide, fun other => absurd other (by decide)⟩

theorem QpTransition.terminal {identity : Nat} {before after : QpRecord}
    (transition : QpTransition event identity before after)
    (failed : before.state = qpStateErr) : after = before := by
  cases transition with
  | kept => rfl
  | initialized asked target allowed state wanted access =>
      rw [state] at failed
      cases failed
  | connected asked target method decoded state number =>
      rw [state] at failed
      cases failed
  | failed asked target allowed state wanted =>
      rw [failed] at state
      exact absurd state (by decide)

/-- The transition between the two records of a queue pair that lives on. -/
theorem step_transition (valid : service.Valid) (staged : service.QpsStaged)
    {before after : Entry QpRecord} (beforeLive : before ∈ service.qps.entries)
    (live : after ∈ (service.step event).qps.entries)
    (same : after.identity = before.identity) :
    QpTransition event before.identity before.record after.record := by
  cases step_origin valid staged event live with
  | created fresh state binding available given advanced =>
      exact absurd (List.mem_map.mpr ⟨before, beforeLive, same.symm⟩) fresh
  | moved origin originLive identity owner transition =>
      rwa [qp_entry_unique valid originLive beforeLive (identity.symm.trans same)] at transition

theorem moves_by_contract (valid : service.Valid) (staged : service.QpsStaged)
    (event : Event) : service.MovesByContract event where
  stored := fun qp member => (staged qp member).stored
  origin := fun _ member => step_origin valid staged event member
  terminal := fun _ beforeLive _ live same failed =>
    (step_transition valid staged beforeLive live same).terminal failed
  bound := fun _ beforeLive _ live same changed =>
    (step_transition valid staged beforeLive live same).binding changed

theorem connect_local (valid : service.Valid)
    (method : ControlMethod.ofCode request.method = some .connectQp) (qp : Entry QpRecord)
    (other : qp.identity ≠ request.objectIdentity) :
    qp ∈ (handle service session request environment).2.qps.entries ↔
      qp ∈ service.qps.entries := by
  have outcome := handle_outcome valid session request environment
  by_cases answered : (handle service session request environment).1.status = none
  · obtain ⟨graph, applied, same⟩ := outcome.applied answered
    refine same.qps.mem_iff.trans ?_
    cases applied with
    | connectQp =>
        constructor
        · intro member
          obtain ⟨before, live, rfl⟩ := List.mem_map.mp member
          rw [Entry.adjust_identity] at other
          rwa [Entry.adjust, if_neg other]
        · intro live
          refine List.mem_map.mpr ⟨qp, live, ?_⟩
          rw [Entry.adjust, if_neg other]
    | observed => exact Iff.rfl
    | _ => simp_all
  · exact (outcome.refused answered).same.qps.mem_iff

/-- The state words stand behind the 48 bytes of the other fields. -/
theorem encodeSnapshot_state {qp : QpRecord} (small : qp.state < 256 ^ 4) :
    ∀ offset ∈ [48, 52],
      (read 4 ((encodeSnapshot qp).drop offset)).map Prod.fst = some qp.state := by
  intro offset member
  rw [encodeSnapshot]
  simp only [List.append_assoc]
  rcases List.mem_pair.mp member with rfl | rfl
  · simp (disch := decide) only [drop_encode, Nat.reduceSub, List.drop_zero, read_encode small,
      Option.map_some]
  · simp (disch := decide) only [drop_encode, Nat.reduceSub, List.drop_zero, read_encode small,
      Option.map_some]

theorem handleQueryQp_shows (valid : service.Valid) (staged : service.QpsStaged)
    (method : ControlMethod.ofCode request.method = some .queryQp)
    (answered : (handle service session request environment).1.status = none) :
    ∃ qp, ⟨request.objectIdentity, session, qp⟩ ∈ service.qps.entries ∧
      ∀ offset ∈ [48, 52],
        (read 4 ((handle service session request environment).1.payload.drop offset)).map
          Prod.fst = some qp.state := by
  simp only [handle, method, handleQueryQp] at answered ⊢
  split at answered
  · cases answered
  · rename_i shaped
    rw [if_neg shaped]
    split at answered
    · cases answered
    · rename_i mask decoded
      split at answered
      · cases answered
      · rename_i qp resolved
        have member := mem_qps valid resolved
        split at answered
        · cases answered
        · rename_i selected
          rw [if_neg selected]
          have small : qp.state < 256 ^ 4 := by
            have stored := (staged _ member).stored.1
            simp only [List.mem_cons, List.not_mem_nil, or_false] at stored
            rcases stored with state | state | state | state <;> rw [state] <;> decide
          exact ⟨qp, member, encodeSnapshot_state small⟩

theorem modify_unsupported (valid : service.Valid) {qp : QpRecord} {attributes : QpAttributes}
    {mask : UInt32} (method : ControlMethod.ofCode request.method = some .modifyQp)
    (shaped : emptyShapeExceptPayload request = true)
    (decoded : decodeModifyPayload request.payload = .ok (attributes, mask))
    (live : ⟨request.objectIdentity, session, qp⟩ ∈ service.qps.entries)
    (selected : mask &&& qpMaskState ≠ 0)
    (known : mask &&& ~~~(qpMaskState ||| qpMaskCurrentState ||| qpMaskAccess) = 0)
    (target : attributes.state = qpStateSqd ∨ attributes.state = qpStateSqe) :
    (handle service session request environment).1.status = some .eopnotsupp := by
  have resolved := (resolve_eq_some_iff valid.qps (by decide)).mpr live
  have refused : modifiedQp qp attributes mask = .error .eopnotsupp := by
    simp only [modifiedQp]
    rw [if_neg (by tauto), if_pos target]
  simp only [handle, method, handleModifyQp, shaped, decoded, resolved, refused,
    Bool.true_eq_false, if_false]
  rfl

theorem answers_by_contract (valid : service.Valid) (staged : service.QpsStaged)
    (session : OwnerSessionId) (request : ControlRequest) (environment : Environment) :
    service.AnswersByContract session request environment where
  connectLocal := fun method qp other => connect_local valid method qp other
  failure := fun failed _ =>
    ((handle_outcome valid session request environment).refused failed).same.qps.mem_iff
  query := fun method answered => handleQueryQp_shows valid staged method answered
  unsupported := fun _ _ _ method shaped decoded live selected known target =>
    modify_unsupported valid method shaped decoded live selected known target
  precedence := fun _ _ _ method shaped decoded => connect_reports valid method shaped decoded

/-- Queue pairs move as the connection contract says, in every run. -/
theorem qp_state_contract (catalog : List DeviceDescriptor) (events : List Event) :
    let service := Execution.run step (create catalog) events
    (∀ event, service.MovesByContract event) ∧
      (∀ session request environment,
        service.AnswersByContract session request environment) ∧
      (boundAlong (create catalog) events).Nodup := by
  intro service
  have valid := run_valid catalog events
  have staged := run_staged (create_valid catalog) (create_staged catalog) events
  exact ⟨moves_by_contract valid staged, answers_by_contract valid staged,
    boundAlong_nodup (create_valid catalog) (create_staged catalog) events⟩

end QpService

end Ugdr.Control
