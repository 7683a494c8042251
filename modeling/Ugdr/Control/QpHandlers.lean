import Ugdr.Control.Service

/-! # Queue-pair requests, disconnects and key lookups

The rest of `QpService`: the requests on queue pairs, the dispatch over all
methods, `on_disconnect`, and the lookups that the workers make.
-/

namespace Ugdr.Control.QpService

open Wire Queue

/-- `encode_snapshot`. The current state is the state. -/
def encodeSnapshot (record : QpRecord) : Bytes :=
  encode 2 qpPayloadVersion ++ encode 2 0 ++ encode 4 record.qpNum ++
    encode 8 record.sendCqIdentity ++ encode 8 record.recvCqIdentity ++
    encode 4 record.sq.maxWr ++ encode 4 record.rq.maxWr ++ encode 4 record.sq.maxSge ++
    encode 4 record.rq.maxSge ++ encode 4 record.qpType ++ encode 4 record.sqSigAll ++
    encode 4 record.state ++ encode 4 record.state ++ encode 4 record.accessFlags ++
    encode 1 record.timeout ++ encode 1 record.retryCount ++ encode 1 record.rnrRetry ++
    encode 1 record.minRnrTimer

/-- The two queues of a new QP with the encoded descriptors of the response. -/
structure QpQueues where
  sendQueue : QueueDescriptor
  receiveQueue : QueueDescriptor
  payload : Bytes

/-- The middle part of `handle_create_qp`: strides, rings, descriptors. -/
def createQpQueues (rings : RingSystemCalls) (attributes : QpCreateAttributes) :
    Except Errno QpQueues := do
  let sendStride ← sendSlotStride attributes.maxSendSge
  let receiveStride ← receiveSlotStride attributes.maxRecvSge
  let sendDescriptor : QueueDescriptor := ⟨.send, attributes.maxSendWr, sendStride⟩
  let receiveDescriptor : QueueDescriptor := ⟨.receive, attributes.maxRecvWr, receiveStride⟩
  let sendQueue ← createSharedRing rings sendDescriptor
  let receiveQueue ← createSharedRing rings receiveDescriptor
  match rings.duplicateFd sendQueue with
  | some status => .error status
  | none =>
      match rings.duplicateFd receiveQueue with
      | some status => .error status
      | none =>
          let payload ← encodeQueueDescriptors [sendDescriptor, receiveDescriptor]
          return ⟨sendQueue, receiveQueue, payload⟩

/-- The record of a new QP, still without its number. -/
def newQpRecord (session : OwnerSessionId) (request : ControlRequest)
    (attributes : QpCreateAttributes) (pd : PdRecord) (queues : QpQueues) : QpRecord :=
  { ownerSession := session
    contextIdentity := pd.contextIdentity
    pdIdentity := request.objectIdentity
    sendCqIdentity := attributes.sendCqIdentity
    recvCqIdentity := attributes.recvCqIdentity
    sq := ⟨attributes.maxSendWr, attributes.maxSendSge⟩
    rq := ⟨attributes.maxRecvWr, attributes.maxRecvSge⟩
    qpType := attributes.qpType
    sqSigAll := attributes.sqSigAll
    sendQueue := queues.sendQueue
    receiveQueue := queues.receiveQueue }

/-- The last part of `handle_create_qp`: number, registry, index and counts. -/
def publishQp (service : QpService) (session : OwnerSessionId) (request : ControlRequest)
    (environment : Environment) (record : QpRecord) (payload : Bytes) :
    ControlResponse × QpService :=
  if service.nextQpNum = 0 then
    (responseFor request (some .enospc), service)
  else
    let record := { record with qpNum := service.nextQpNum }
    let numbered := { service with nextQpNum := (service.nextQpNum + 1) % 2 ^ 32 }
    match numbered.qps.insert session record with
    | (none, qps) => (responseFor request (some .enospc), { numbered with qps })
    | (some identity, qps) =>
        let (indexed, qpNumIndex) := emplace numbered.qpNumIndex record.qpNum identity
        if environment.tableInsertions = 0 then
          (responseFor request (some .enomem),
            { numbered with qps := (qps.erase session identity).2 })
        else if indexed then
          let counted := ({ numbered with qps, qpNumIndex }.adjustQpCount session
            request.objectIdentity (· + 1)).adjustQpReferences session
              record.sendCqIdentity (· + 1)
          ({ responseFor request none with
              objectIdentity := identity
              payload := payload
              fdIndices := [0, 1]
              fileDescriptors := [record.sendQueue, record.receiveQueue] },
            -- Two identities name the same record exactly when they are equal.
            if record.recvCqIdentity ≠ record.sendCqIdentity then
              counted.adjustQpReferences session record.recvCqIdentity (· + 1)
            else
              counted)
        else
          (responseFor request (some .enospc),
            { numbered with qps := (qps.erase session identity).2 })

def handleCreateQp : Handler := fun service session request environment =>
  if emptyShapeExceptPayload request = false then
    (responseFor request (some .einval), service)
  else
    match decodeQpCreateAttributes request.payload with
    | .error status => (responseFor request (some status), service)
    | .ok attributes =>
        if validQpCreateAttributes attributes = false then
          (responseFor request (some .einval), service)
        else
          match service.resolvePd session request.objectIdentity,
              service.resolveCq session attributes.sendCqIdentity,
              service.resolveCq session attributes.recvCqIdentity with
          | some pd, some sendCq, some recvCq =>
              if pd.contextIdentity ≠ sendCq.contextIdentity ∨
                  pd.contextIdentity ≠ recvCq.contextIdentity then
                (responseFor request (some .einval), service)
              else
                match createQpQueues environment.rings attributes with
                | .error status => (responseFor request (some status), service)
                | .ok queues =>
                    publishQp service session request environment
                      (newQpRecord session request attributes pd queues) queues.payload
          | _, _, _ => (responseFor request (some .einval), service)

def handleDestroyQp : Handler := fun service session request _ =>
  if emptyShape request = false then
    (responseFor request (some .einval), service)
  else
    match service.qps.resolve session request.objectIdentity with
    | none => (responseFor request (some .einval), service)
    | some qp =>
        match service.resolvePd session qp.pdIdentity,
            service.resolveCq session qp.sendCqIdentity,
            service.resolveCq session qp.recvCqIdentity with
        | some pd, some sendCq, some recvCq =>
            if pd.qpCount = 0 ∨ sendCq.qpReferences = 0 ∨
                (qp.recvCqIdentity ≠ qp.sendCqIdentity ∧ recvCq.qpReferences = 0) then
              (responseFor request (some .einval), service)
            else
              let released := (service.adjustQpCount session qp.pdIdentity
                (· - 1)).adjustQpReferences session qp.sendCqIdentity (· - 1)
              let counted :=
                if qp.recvCqIdentity ≠ qp.sendCqIdentity then
                  released.adjustQpReferences session qp.recvCqIdentity (· - 1)
                else
                  released
              match counted.qps.erase session request.objectIdentity with
              | (some status, qps) =>
                  (responseFor request (some status), { counted with qps })
              | (none, qps) =>
                  (responseFor request none,
                    { counted with
                      qps := qps
                      qpNumIndex := Function.update counted.qpNumIndex qp.qpNum none })
        | _, _, _ => (responseFor request (some .einval), service)

def handleQueryQp : Handler := fun service session request _ =>
  if emptyShapeExceptPayload request = false then
    (responseFor request (some .einval), service)
  else
    match decodeQueryPayload request.payload with
    | .error status => (responseFor request (some status), service)
    | .ok mask =>
        match service.qps.resolve session request.objectIdentity with
        | none => (responseFor request (some .einval), service)
        | some qp =>
            if validQueryMask mask = false then
              (responseFor request (some .einval), service)
            else
              ({ responseFor request none with payload := encodeSnapshot qp }, service)

/-- The state change that `handle_modify_qp` makes on the record, if any. -/
def modifiedQp (qp : QpRecord) (attributes : QpAttributes) (mask : UInt32) :
    Except Errno QpRecord :=
  let supportedMask := qpMaskState ||| qpMaskCurrentState ||| qpMaskAccess
  if mask &&& qpMaskState = 0 ∨ mask &&& ~~~supportedMask ≠ 0 then
    .error .einval
  else if attributes.state = qpStateSqd ∨ attributes.state = qpStateSqe then
    .error .eopnotsupp
  else if mask &&& qpMaskCurrentState ≠ 0 ∧ attributes.currentState ≠ qp.state then
    .error .einval
  else
    let baseMask := mask &&& ~~~qpMaskCurrentState
    if qp.state = qpStateReset ∧ attributes.state = qpStateInit ∧
        baseMask = qpMaskState ||| qpMaskAccess ∧
        attributes.accessFlags = qpAccessRemoteWrite then
      .ok { qp with accessFlags := attributes.accessFlags, state := qpStateInit }
    else if (qp.state = qpStateReset ∨ qp.state = qpStateInit ∨ qp.state = qpStateRtr ∨
        qp.state = qpStateRts) ∧ attributes.state = qpStateErr ∧
        baseMask = qpMaskState then
      .ok { qp with state := qpStateErr }
    else
      .error .einval

def handleModifyQp : Handler := fun service session request _ =>
  if emptyShapeExceptPayload request = false then
    (responseFor request (some .einval), service)
  else
    match decodeModifyPayload request.payload with
    | .error status => (responseFor request (some status), service)
    | .ok (attributes, mask) =>
        match service.qps.resolve session request.objectIdentity with
        | none => (responseFor request (some .einval), service)
        | some qp =>
            match modifiedQp qp attributes mask with
            | .error status => (responseFor request (some status), service)
            | .ok updated =>
                (responseFor request none,
                  { service with
                    qps := service.qps.modify session request.objectIdentity
                      fun _ => updated })

def handleQueryQpConnInfo : Handler := fun service session request _ =>
  if emptyShape request = false then
    (responseFor request (some .einval), service)
  else
    match service.qps.resolve session request.objectIdentity with
    | none => (responseFor request (some .einval), service)
    | some qp => ({ responseFor request none with payload := encodeConnInfo qp.qpNum }, service)

/-- The record after a successful `connect_qp`. -/
def connectedQp (qp : QpRecord) (remoteQpNum remoteIdentity : Nat)
    (attributes : QpAttributes) : QpRecord :=
  { qp with
    peerQpNum := remoteQpNum
    peerIdentity := remoteIdentity
    timeout := attributes.timeout
    retryCount := attributes.retryCount
    rnrRetry := attributes.rnrRetry
    minRnrTimer := attributes.minRnrTimer
    state := qpStateRts }

def handleConnectQp : Handler := fun service session request _ =>
  if emptyShapeExceptPayload request = false then
    (responseFor request (some .einval), service)
  else
    match decodeConnectPayload request.payload with
    | .error status => (responseFor request (some status), service)
    | .ok (remoteQpNum, attributes, mask) =>
        match service.qps.resolve session request.objectIdentity with
        | none => (responseFor request (some .einval), service)
        | some qp =>
            if remoteQpNum = 0 ∨ mask ≠ qpConnectMask ∨
                validRetryAttributes attributes = false then
              (responseFor request (some .einval), service)
            else if qp.peerQpNum ≠ 0 ∧ qp.peerQpNum ≠ remoteQpNum then
              (responseFor request (some .ebusy), service)
            else if qp.state ≠ qpStateInit then
              (responseFor request (some .einval), service)
            else
              match service.qpNumIndex remoteQpNum with
              | none => (responseFor request (some .enoent), service)
              | some remoteIdentity =>
                  match service.qps.resolveAny remoteIdentity with
                  | none => (responseFor request (some .enoent), service)
                  | some remote =>
                      if remote.qpType ≠ qpTypeRc ∨ (remote.state ≠ qpStateInit ∧
                          remote.state ≠ qpStateRtr ∧ remote.state ≠ qpStateRts) then
                        (responseFor request (some .einval), service)
                      else
                        (responseFor request none,
                          { service with
                            qps := service.qps.modify session request.objectIdentity
                              fun qp => connectedQp qp remoteQpNum remoteIdentity
                                attributes })

def handle : Handler := fun service session request environment =>
  match ControlMethod.ofCode request.method with
  | some .createQp => handleCreateQp service session request environment
  | some .destroyQp => handleDestroyQp service session request environment
  | some .queryQp => handleQueryQp service session request environment
  | some .modifyQp => handleModifyQp service session request environment
  | some .queryQpConnInfo => handleQueryQpConnInfo service session request environment
  | some .connectQp => handleConnectQp service session request environment
  | _ => handlePdMrCq service session request environment

/-- The loop of `QpService::on_disconnect` over the session's queue pairs. -/
def dropQpNumbers (index : Nat → Option Nat) (visited : List (Nat × QpRecord)) :
    Nat → Option Nat :=
  visited.foldl (fun index visit => Function.update index visit.2.qpNum none) index

/-- `on_disconnect`. The mappings it closes leave no trace in the state. -/
def onDisconnect (service : QpService) (session : OwnerSessionId) : QpService :=
  { service with
    qpNumIndex := dropQpNumbers service.qpNumIndex (service.qps.forEachSession session)
    qps := (service.qps.eraseSession session).2
    mrs := (service.mrs.eraseSession session).2
    cqs := (service.cqs.eraseSession session).2
    pds := (service.pds.eraseSession session).2
    contexts := (service.contexts.eraseSession session).2 }

/-! ## Lookups of the workers -/

def resolveKey (service : QpService) (session pdIdentity key address length : Nat)
    (remote : Bool) : Except Errno Nat :=
  if key = 0 ∨ length = 0 then
    .error .einval
  else
    match service.pds.resolve session pdIdentity with
    | none => .error .einval
    | some pd =>
        match (if remote then pd.remoteKeyIndex else pd.localKeyIndex) key with
        | none => .error .einval
        | some mrIdentity =>
            match service.mrs.resolve session mrIdentity with
            | none => .error .einval
            | some mr =>
                if mr.pdIdentity ≠ pdIdentity then
                  .error .einval
                else if remote ∧ mr.access &&& accessRemoteWrite = 0 then
                  .error .eacces
                else if address < mr.clientAddress ∨ 2 ^ 64 - 1 - length < address ∨
                    2 ^ 64 - 1 - mr.length < mr.clientAddress ∨
                    mr.clientAddress + mr.length < address + length then
                  .error .einval
                else if 2 ^ 64 - 1 - (address - mr.clientAddress) < mr.daemonAddress then
                  .error .einval
                else
                  .ok (mr.daemonAddress + (address - mr.clientAddress))

def resolveLkey (service : QpService) (session pdIdentity lkey address length : Nat) :
    Except Errno Nat :=
  service.resolveKey session pdIdentity lkey address length false

def resolveRkey (service : QpService) (session pdIdentity rkey address length : Nat) :
    Except Errno Nat :=
  service.resolveKey session pdIdentity rkey address length true

/-- `WorkerQpView` with the rings named by their descriptors. -/
structure WorkerQpView where
  sessionId : OwnerSessionId
  pdIdentity : Nat
  qpNum : Nat
  peerQpNum : Nat
  maxSendSge : Nat
  maxRecvSge : Nat
  sqSigAll : Nat
  sendQueue : QueueDescriptor
  receiveQueue : QueueDescriptor
  sendCq : QueueDescriptor
  receiveCq : QueueDescriptor
  deriving DecidableEq, Repr

def workerQpView (service : QpService) (qpNum : Nat) : Except Errno WorkerQpView :=
  if qpNum = 0 then
    .error .einval
  else
    match service.qpNumIndex qpNum with
    | none => .error .enoent
    | some identity =>
        match service.qps.resolveAny identity with
        | none => .error .enoent
        | some qp =>
            match service.resolveCq qp.ownerSession qp.sendCqIdentity,
                service.resolveCq qp.ownerSession qp.recvCqIdentity with
            | some sendCq, some receiveCq =>
                .ok
                  { sessionId := qp.ownerSession
                    pdIdentity := qp.pdIdentity
                    qpNum := qp.qpNum
                    peerQpNum := qp.peerQpNum
                    maxSendSge := qp.sq.maxSge
                    maxRecvSge := qp.rq.maxSge
                    sqSigAll := qp.sqSigAll
                    sendQueue := qp.sendQueue
                    receiveQueue := qp.receiveQueue
                    sendCq := sendCq.completions
                    receiveCq := receiveCq.completions }
            | _, _ => .error .einval

end Ugdr.Control.QpService
