import Ugdr.Control.QpHandlers

/-! # The control client

`ControlClient` and the functions that make one control request each. A request is passed
on as the value that it is encoded from, and the daemon at the other end is any `Transport`.
-/

namespace Ugdr.Control

open Wire Queue

/-! ## Payloads -/

def encodeMrRegistration (memory : ExportedCudaMemory) : Bytes :=
  encode 2 mrPayloadVersion ++ encode 2 0 ++ memory.gpuUuid ++ encode 8 memory.clientAddress ++
    encode 8 memory.allocationSize ++ encode 8 memory.allocationOffset ++
    encode 4 memory.ipcHandle.length ++ memory.ipcHandle

def mrRegistrationResultSize : Nat := 28

def decodeMrRegistrationResult (bytes : Bytes) : Except Errno MrRegistrationResult :=
  if bytes.length ≠ mrRegistrationResultSize then
    .error .eproto
  else
    match do
      let (version, bytes) ← read 2 bytes
      let (reserved, bytes) ← read 2 bytes
      let (clientAddress, bytes) ← read 8 bytes
      let (length, bytes) ← read 8 bytes
      let (lkey, bytes) ← read 4 bytes
      let (rkey, _) ← read 4 bytes
      some (version, reserved, MrRegistrationResult.mk clientAddress length lkey rkey) with
    | none => .error .eproto
    | some (version, reserved, result) =>
        if version ≠ mrPayloadVersion ∨ reserved ≠ 0 ∨ result.clientAddress = 0 ∨
            result.length = 0 ∨ result.lkey = 0 ∨ result.rkey = 0 then
          .error .eproto
        else
          .ok result

def QueueKind.ofCode : Nat → Option QueueKind
  | 1 => some .send
  | 2 => some .receive
  | 3 => some .completion
  | _ => none

/-- The loop of `decode_queue_descriptors`. -/
def readDescriptors : Nat → Bytes → Option (List QueueDescriptor)
  | 0, _ => some []
  | count + 1, bytes => do
      let (kind, bytes) ← read 4 bytes
      let (capacity, bytes) ← read 4 bytes
      let (stride, bytes) ← read 4 bytes
      let (reserved, bytes) ← read 4 bytes
      let kind ← QueueKind.ofCode kind
      if reserved ≠ 0 ∨ capacity = 0 ∨ stride = 0 ∨ stride % sharedRingCacheLine ≠ 0 then
        none
      else
        let descriptors ← readDescriptors count bytes
        some (⟨kind, capacity, stride⟩ :: descriptors)

def decodeQueueDescriptors (bytes : Bytes) : Except Errno (List QueueDescriptor) :=
  match do
    let (version, bytes) ← read 2 bytes
    let (count, bytes) ← read 2 bytes
    some (version, count, bytes) with
  | none => .error .eproto
  | some (version, count, rest) =>
      if version ≠ queueDescriptorPayloadVersion then
        .error .eprotonosupport
      else if count = 0 ∨ bytes.length ≠ 4 + count * 16 then
        .error .eproto
      else
        match readDescriptors count rest with
        | none => .error .eproto
        | some descriptors => .ok descriptors

def encodeQpCreateAttributes (attributes : QpCreateAttributes) : Bytes :=
  encode 2 qpPayloadVersion ++ encode 2 0 ++ encode 8 attributes.sendCqIdentity ++
    encode 8 attributes.recvCqIdentity ++ encode 4 attributes.maxSendWr ++
    encode 4 attributes.maxRecvWr ++ encode 4 attributes.maxSendSge ++
    encode 4 attributes.maxRecvSge ++ encode 4 attributes.qpType ++
    encode 4 attributes.sqSigAll

def encodeQueryPayload (mask : UInt32) : Bytes :=
  encode 2 qpPayloadVersion ++ encode 2 0 ++ encode 4 mask.toNat

def encodeModifyPayload (attributes : QpAttributes) (mask : UInt32) : Bytes :=
  encode 2 qpPayloadVersion ++ encode 2 0 ++ encode 4 mask.toNat ++ encode 4 attributes.state ++
    encode 4 attributes.currentState ++ encode 4 attributes.accessFlags ++
    encode 1 attributes.timeout ++ encode 1 attributes.retryCount ++
    encode 1 attributes.rnrRetry ++ encode 1 attributes.minRnrTimer

def encodeConnectPayload (qpNum : Nat) (attributes : QpAttributes) (mask : UInt32) : Bytes :=
  encode 2 qpPayloadVersion ++ encode 2 0 ++ encode 4 mask.toNat ++ encode 4 qpNum ++
    encode 1 attributes.timeout ++ encode 1 attributes.retryCount ++
    encode 1 attributes.rnrRetry ++ encode 1 attributes.minRnrTimer

structure QpSnapshot where
  qpNum : Nat
  creation : QpCreateAttributes
  attributes : QpAttributes
  deriving DecidableEq, Repr

def qpSnapshotPayloadSize : Nat := 64

def decodeSnapshot (bytes : Bytes) : Except Errno QpSnapshot :=
  match readHeader bytes qpSnapshotPayloadSize with
  | .error status => .error status
  | .ok bytes =>
      match do
        let (qpNum, bytes) ← read 4 bytes
        let (sendCq, bytes) ← read 8 bytes
        let (recvCq, bytes) ← read 8 bytes
        let (maxSendWr, bytes) ← read 4 bytes
        let (maxRecvWr, bytes) ← read 4 bytes
        let (maxSendSge, bytes) ← read 4 bytes
        let (maxRecvSge, bytes) ← read 4 bytes
        let (qpType, bytes) ← read 4 bytes
        let (sqSigAll, bytes) ← read 4 bytes
        let (state, bytes) ← read 4 bytes
        let (currentState, bytes) ← read 4 bytes
        let (accessFlags, bytes) ← read 4 bytes
        let (timeout, bytes) ← read 1 bytes
        let (retryCount, bytes) ← read 1 bytes
        let (rnrRetry, bytes) ← read 1 bytes
        let (minRnrTimer, _) ← read 1 bytes
        some {
          qpNum
          creation := ⟨sendCq, recvCq, maxSendWr, maxRecvWr, maxSendSge, maxRecvSge, qpType,
            sqSigAll⟩
          attributes := ⟨state, currentState, accessFlags, timeout, retryCount, rnrRetry,
            minRnrTimer⟩ } with
      | none => .error .eproto
      | some snapshot => .ok snapshot

/-- The loop of `decode_device_list`, with the bytes that are left over. -/
def readDevices : Nat → Bytes → Option (List DeviceDescriptor × Bytes)
  | 0, bytes => some ([], bytes)
  | count + 1, bytes => do
      let (identity, bytes) ← read 8 bytes
      let (nameLength, bytes) ← read 2 bytes
      if identity = 0 ∨ bytes.length < nameLength then
        none
      else
        let (devices, rest) ← readDevices count (bytes.drop nameLength)
        some (⟨identity, bytes.take nameLength⟩ :: devices, rest)

def decodeDeviceList (bytes : Bytes) : Except Errno (List DeviceDescriptor) :=
  match read 4 bytes with
  | none => .error .eproto
  | some (count, rest) =>
      if rest.length / 10 < count then
        .error .eproto
      else
        match readDevices count rest with
        | some (devices, []) => .ok devices
        | _ => .error .eproto

/-! ## The connection -/

/-- A number that the daemon has handed out, with the connection on which it did so; the
connections of a client are counted from one. -/
structure Obtained where
  value : Nat
  connection : Nat
  deriving DecidableEq, Repr

/-- A request that was sent, with the connection it was sent on and the handed out numbers
in it. -/
structure Sent where
  connection : Nat
  request : ControlRequest
  identities : List Obtained
  deriving DecidableEq, Repr

/-- The other end. A connection attempt succeeds or not, and a request is answered or ends
in an error of the transport, wherever the request was lost. -/
structure Transport (World : Type) where
  connect : World → Status × World
  exchange : World → ControlRequest → Except Errno ControlResponse × World

/-- The client, with what it has sent and the number of its connections so far. -/
structure ControlClient (World : Type) where
  connected : Bool := false
  connectionEpoch : Nat := 0
  world : World
  connections : Nat := 0
  sent : List Sent := []

namespace ControlClient

variable {World : Type}

def connect (transport : Transport World) (client : ControlClient World) :
    Status × ControlClient World :=
  match transport.connect client.world with
  | (some status, world) => (some status, { client with world })
  | (none, world) =>
      let next := (client.connectionEpoch + 1) % 2 ^ 64
      (none,
        { client with
          connected := true
          connectionEpoch := if next = 0 then 1 else next
          world
          connections := client.connections + 1 })

def close (client : ControlClient World) : ControlClient World :=
  { client with connected := false }

def negative (status : Status) : Bool :=
  match status with
  | none => false
  | some status => status.number < 0

/-- `ControlClient::Impl::call` with the response and its descriptors. -/
def call (transport : Transport World) (client : ControlClient World)
    (request : ControlRequest) (identities : List Obtained) :
    Except Errno ControlResponse × ControlClient World :=
  if client.connected = false then
    (.error (.other 107), client.close)
  else
    let (answer, world) := transport.exchange client.world request
    let client :=
      { client with
        world
        sent := client.sent ++ [⟨client.connections, request, identities⟩] }
    match answer with
    | .error status => (.error status, client.close)
    | .ok response =>
        if response.method ≠ request.method ∨ negative response.status then
          (.error .eproto, client.close)
        else
          (.ok response, client)

/-- `ControlClient::Impl::call` for a response without descriptors. -/
def callPlain (transport : Transport World) (client : ControlClient World)
    (request : ControlRequest) (identities : List Obtained) :
    Except Errno ControlResponse × ControlClient World :=
  match client.call transport request identities with
  | (.error status, client) => (.error status, client)
  | (.ok response, client) =>
      if response.fileDescriptors ≠ [] then
        (.error .eproto, client.close)
      else
        (.ok response, client)

/-- The identity in a response, as it is known to this client. -/
def obtained (client : ControlClient World) (identity : Nat) : Obtained :=
  ⟨identity, client.connections⟩

end ControlClient

/-! ## Requests -/

def validateIdentity (identity : Nat) (type : ObjectType) : Bool :=
  match decodeObjectIdentity identity with
  | none => false
  | some parts => parts.type = type.code

section Requests

variable {World : Type} (transport : Transport World) (client : ControlClient World)

/-- `ControlClient::list_devices`. -/
def clientListDevices : Except Errno (List DeviceDescriptor) × ControlClient World :=
  match client.callPlain transport { method := 1 } [] with
  | (.error status, client) => (.error status, client)
  | (.ok response, client) =>
      match response.status with
      | some status => (.error status, client)
      | none => (decodeDeviceList response.payload, client)

/-- `ControlClient::create_context`, which does not look at the rest of the response. -/
def clientCreateContext (device : Obtained) : Except Errno Obtained × ControlClient World :=
  if device.value = 0 then
    (.error .einval, client)
  else
    match client.callPlain transport { method := 2, objectIdentity := device.value } [device] with
    | (.error status, client) => (.error status, client)
    | (.ok response, client) =>
        match response.status with
        | some status => (.error status, client)
        | none =>
            if validateIdentity response.objectIdentity .context = false then
              (.error .eproto, client)
            else
              (.ok (client.obtained response.objectIdentity), client)

/-- `ControlClient::destroy_context`. -/
def clientDestroyContext (context : Obtained) : Except Errno Unit × ControlClient World :=
  if context.value = 0 then
    (.error .einval, client)
  else
    match client.callPlain transport { method := 3, objectIdentity := context.value }
        [context] with
    | (.error status, client) => (.error status, client)
    | (.ok response, client) =>
        match response.status with
        | some status => (.error status, client)
        | none => (.ok (), client)

/-- `call_identity`. -/
def callIdentity (request : ControlRequest) (identities : List Obtained) (type : ObjectType) :
    Except Errno Obtained × ControlClient World :=
  match client.callPlain transport request identities with
  | (.error status, client) => (.error status, client)
  | (.ok response, client) =>
      match response.status with
      | some status => (.error status, client)
      | none =>
          if validateIdentity response.objectIdentity type = false ∨ response.payload ≠ [] ∨
              response.fdIndices ≠ [] then
            (.error .eproto, client)
          else
            (.ok (client.obtained response.objectIdentity), client)

/-- `call_destroy` and `call_empty`. -/
def callDestroy (request : ControlRequest) (identities : List Obtained) :
    Except Errno Unit × ControlClient World :=
  match client.callPlain transport request identities with
  | (.error status, client) => (.error status, client)
  | (.ok response, client) =>
      match response.status with
      | some status => (.error status, client)
      | none =>
          if response.objectIdentity ≠ 0 ∨ response.payload ≠ [] ∨ response.fdIndices ≠ [] then
            (.error .eproto, client)
          else
            (.ok (), client)

/-- The functions that destroy an object differ in the method only. -/
def clientDestroy (method : Nat) (identity : Obtained) :
    Except Errno Unit × ControlClient World :=
  if identity.value = 0 then
    (.error .einval, client)
  else
    callDestroy transport client { method, objectIdentity := identity.value } [identity]

def clientCreatePd (context : Obtained) : Except Errno Obtained × ControlClient World :=
  if context.value = 0 then
    (.error .einval, client)
  else
    callIdentity transport client { method := 4, objectIdentity := context.value } [context] .pd

def clientDestroyPd (pd : Obtained) : Except Errno Unit × ControlClient World :=
  clientDestroy transport client 5 pd

def clientRegisterMr (pd : Obtained) (memory : ExportedCudaMemory) (access : UInt32) :
    Except Errno (Obtained × MrRegistrationResult) × ControlClient World :=
  if pd.value = 0 ∨ validMemory memory = false ∨ QpService.validAccess access = false then
    (.error .einval, client)
  else
    match client.callPlain transport
        { method := 6
          objectIdentity := pd.value
          length := memory.length
          access
          payload := encodeMrRegistration memory } [pd] with
    | (.error status, client) => (.error status, client)
    | (.ok response, client) =>
        match response.status with
        | some status => (.error status, client)
        | none =>
            if validateIdentity response.objectIdentity .mr = false ∨
                response.fdIndices ≠ [] then
              (.error .eproto, client)
            else
              match decodeMrRegistrationResult response.payload with
              | .error _ => (.error .eproto, client)
              | .ok result =>
                  if result.clientAddress ≠ memory.clientAddress ∨
                      result.length ≠ memory.length then
                    (.error .eproto, client)
                  else
                    (.ok (client.obtained response.objectIdentity, result), client)

def clientDeregisterMr (mr : Obtained) : Except Errno Unit × ControlClient World :=
  clientDestroy transport client 7 mr

def clientDestroyCq (cq : Obtained) : Except Errno Unit × ControlClient World :=
  clientDestroy transport client 9 cq

/-- The daemon's object is destroyed again, and the answer to that is not looked at. -/
def abandon (method : Nat) (identity : Obtained) (status : Errno) :
    Except Errno Obtained × ControlClient World :=
  (.error status, (clientDestroy transport client method identity).2)

/-- The queues of a response: the descriptors in its payload are the expected ones, and each
descriptor that came with it can be mapped. -/
def mapQueues (response : ControlResponse) (expected : List QueueDescriptor)
    (mapRing : QueueDescriptor → Status) : Status :=
  match decodeQueueDescriptors response.payload with
  | .error status => some (if status = .eprotonosupport then status else .eproto)
  | .ok descriptors =>
      if descriptors ≠ expected then
        some .eproto
      else
        expected.findSome? mapRing

def clientCreateCq (context : Obtained) (cqe : Nat) (mapRing : QueueDescriptor → Status) :
    Except Errno Obtained × ControlClient World :=
  if context.value = 0 ∨ cqe = 0 then
    (.error .einval, client)
  else
    match client.call transport { method := 8, objectIdentity := context.value, length := cqe }
        [context] with
    | (.error status, client) => (.error status, client)
    | (.ok response, client) =>
        match response.status with
        | some status => (.error status, client)
        | none =>
            let cq := client.obtained response.objectIdentity
            if validateIdentity cq.value .cq = false then
              (.error .eproto, client)
            else if response.fdIndices ≠ [0] ∨ response.fileDescriptors.length ≠ 1 then
              abandon transport client 9 cq .eproto
            else
              match mapQueues response [⟨.completion, cqe, completionSlotStride⟩] mapRing with
              | some status => abandon transport client 9 cq status
              | none => (.ok cq, client)

def clientDestroyQp (qp : Obtained) : Except Errno Unit × ControlClient World :=
  clientDestroy transport client 11 qp

/-- The descriptors of the queues that a QP with these attributes has. -/
def expectedQueues (attributes : QpCreateAttributes) : Except Errno (List QueueDescriptor) := do
  let sendStride ← sendSlotStride attributes.maxSendSge
  let receiveStride ← receiveSlotStride attributes.maxRecvSge
  return [⟨.send, attributes.maxSendWr, sendStride⟩,
    ⟨.receive, attributes.maxRecvWr, receiveStride⟩]

def clientCreateQp (pd sendCq recvCq : Obtained) (attributes : QpCreateAttributes)
    (mapRing : QueueDescriptor → Status) : Except Errno Obtained × ControlClient World :=
  if pd.value = 0 ∨ validQpCreateAttributes attributes = false then
    (.error .einval, client)
  else
    match client.call transport
        { method := 10
          objectIdentity := pd.value
          payload := encodeQpCreateAttributes attributes } [pd, sendCq, recvCq] with
    | (.error status, client) => (.error status, client)
    | (.ok response, client) =>
        match response.status with
        | some status => (.error status, client)
        | none =>
            let qp := client.obtained response.objectIdentity
            if validateIdentity qp.value .qp = false then
              (.error .eproto, client)
            else if response.fdIndices ≠ [0, 1] ∨ response.fileDescriptors.length ≠ 2 then
              abandon transport client 11 qp .eproto
            else
              match expectedQueues attributes with
              | .error status => abandon transport client 11 qp status
              | .ok expected =>
                  match mapQueues response expected mapRing with
                  | some status => abandon transport client 11 qp status
                  | none => (.ok qp, client)

def clientQueryQp (qp : Obtained) (mask : UInt32) :
    Except Errno QpSnapshot × ControlClient World :=
  if qp.value = 0 ∨ validQueryMask mask = false then
    (.error .einval, client)
  else
    match client.callPlain transport
        { method := 12, objectIdentity := qp.value, payload := encodeQueryPayload mask } [qp] with
    | (.error status, client) => (.error status, client)
    | (.ok response, client) =>
        match response.status with
        | some status => (.error status, client)
        | none =>
            if response.objectIdentity ≠ 0 ∨ response.fdIndices ≠ [] then
              (.error .eproto, client)
            else
              (decodeSnapshot response.payload, client)

def clientModifyQp (qp : Obtained) (attributes : QpAttributes) (mask : UInt32) :
    Except Errno Unit × ControlClient World :=
  if qp.value = 0 then
    (.error .einval, client)
  else
    callDestroy transport client
      { method := 13
        objectIdentity := qp.value
        payload := encodeModifyPayload attributes mask } [qp]

def clientQueryQpConnInfo (qp : Obtained) : Except Errno Nat × ControlClient World :=
  if qp.value = 0 then
    (.error .einval, client)
  else
    match client.callPlain transport { method := 14, objectIdentity := qp.value } [qp] with
    | (.error status, client) => (.error status, client)
    | (.ok response, client) =>
        match response.status with
        | some status => (.error status, client)
        | none =>
            if response.objectIdentity ≠ 0 ∨ response.fdIndices ≠ [] then
              (.error .eproto, client)
            else
              -- `decode_conn_info` is `decode_query_payload`.
              match decodeQueryPayload response.payload with
              | .error status => (.error status, client)
              | .ok qpNum =>
                  if qpNum = 0 then (.error .eproto, client) else (.ok qpNum.toNat, client)

def clientConnectQp (qp : Obtained) (remoteQpNum : Nat) (attributes : QpAttributes)
    (mask : UInt32) : Except Errno Unit × ControlClient World :=
  if qp.value = 0 ∨ remoteQpNum = 0 then
    (.error .einval, client)
  else
    callDestroy transport client
      { method := 15
        objectIdentity := qp.value
        payload := encodeConnectPayload remoteQpNum attributes mask } [qp]

end Requests

end Ugdr.Control
