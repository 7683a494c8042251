import Ugdr.Control.ControlClient
import Ugdr.Control.IpcAdapter
import Ugdr.Foundation.Codec

/-! # Payloads on the words of the host

The encoders and decoders of the control payloads as they are compiled: fields in host byte
order, swapped on the way, and read at an offset into the buffer. The functions of the same
names outside this namespace work on numbers and strings.
-/

namespace Ugdr.Control.Payload

open Wire Checked Queue

/-! ## Memory regions -/

def encodeMrRegistration (memory : ExportedCudaMemory) : Except Errno Bytes :=
  if validMemory memory = false then
    .error .einval
  else
    .ok (littleEndian 2 (swapBytes 2 mrPayloadVersion) ++ littleEndian 2 0 ++ memory.gpuUuid ++
      littleEndian 8 (swapBytes64 memory.clientAddress) ++
      littleEndian 8 (swapBytes64 memory.allocationSize) ++
      littleEndian 8 (swapBytes64 memory.allocationOffset) ++
      littleEndian 4 (swapBytes 4 memory.ipcHandle.length) ++ memory.ipcHandle)

/-- `decode_mr_registration`, up to the assignment of its output. -/
def readMrRegistration (bytes : Bytes) (length : Nat) (memory : Option ExportedCudaMemory) :
    Checked Errno ExportedCudaMemory :=
  if memory = none ∨ bytes.length < mrRegistrationFixedSize then
    fail .eproto
  else do
    let (version, offset) ← readField 2 bytes 0
    let (reserved, offset) ← readField 2 bytes offset
    if swapBytes 2 version ≠ mrPayloadVersion then
      fail .eprotonosupport
    else if reserved ≠ 0 then
      fail .eproto
    else
      let gpuUuid ← slice bytes offset (offset + gpuUuidSize)
      let (clientAddress, offset) ← readField 8 bytes (offset + gpuUuidSize)
      let (allocationSize, offset) ← readField 8 bytes offset
      let (allocationOffset, offset) ← readField 8 bytes offset
      let (handleSize, offset) ← readField 4 bytes offset
      let left ← sizeSub bytes.length offset
      let handleSize := swapBytes 4 handleSize
      if handleSize = 0 ∨ maxCudaIpcHandleSize < handleSize ∨ handleSize ≠ left then
        fail .eproto
      else
        let ipcHandle ← slice bytes offset bytes.length
        let decoded : ExportedCudaMemory :=
          { gpuUuid
            clientAddress := swapBytes64 clientAddress
            allocationSize := swapBytes64 allocationSize
            allocationOffset := swapBytes64 allocationOffset
            length
            ipcHandle }
        if validMemory decoded = false then
          fail .einval
        else
          return decoded

def decodeMrRegistration (bytes : Bytes) (length : Nat) (memory : Option ExportedCudaMemory) :
    Decoded Errno ExportedCudaMemory :=
  .assign (readMrRegistration bytes length memory) memory

def encodeMrRegistrationResult (result : MrRegistrationResult) : Except Errno Bytes :=
  if result.clientAddress = 0 ∨ result.length = 0 ∨ result.lkey = 0 ∨ result.rkey = 0 then
    .error .einval
  else
    .ok (littleEndian 2 (swapBytes 2 mrPayloadVersion) ++ littleEndian 2 0 ++
      littleEndian 8 (swapBytes64 result.clientAddress) ++
      littleEndian 8 (swapBytes64 result.length) ++ littleEndian 4 (swapBytes 4 result.lkey) ++
      littleEndian 4 (swapBytes 4 result.rkey))

/-- `decode_mr_registration_result`, up to the assignment of its output. -/
def readMrRegistrationResult (bytes : Bytes) (result : Option MrRegistrationResult) :
    Checked Errno MrRegistrationResult :=
  if result = none ∨ bytes.length ≠ mrRegistrationResultSize then
    fail .eproto
  else do
    let (version, offset) ← readField 2 bytes 0
    let (reserved, offset) ← readField 2 bytes offset
    let (clientAddress, offset) ← readField 8 bytes offset
    let (length, offset) ← readField 8 bytes offset
    let (lkey, offset) ← readField 4 bytes offset
    let (rkey, _) ← readField 4 bytes offset
    if swapBytes 2 version ≠ mrPayloadVersion ∨ reserved ≠ 0 then
      fail .eproto
    else
      let decoded : MrRegistrationResult :=
        { clientAddress := swapBytes64 clientAddress
          length := swapBytes64 length
          lkey := swapBytes 4 lkey
          rkey := swapBytes 4 rkey }
      if decoded.clientAddress = 0 ∨ decoded.length = 0 ∨ decoded.lkey = 0 ∨
          decoded.rkey = 0 then
        fail .eproto
      else
        return decoded

def decodeMrRegistrationResult (bytes : Bytes) (result : Option MrRegistrationResult) :
    Decoded Errno MrRegistrationResult :=
  .assign (readMrRegistrationResult bytes result) result

/-! ## Queue pairs -/

def appendHeader : Bytes :=
  littleEndian 2 (swapBytes 2 qpPayloadVersion) ++ littleEndian 2 0

/-- `read_header`, with the offset behind the header. -/
def readHeader (bytes : Bytes) (expectedSize : Nat) : Checked Errno Nat :=
  if bytes.length ≠ expectedSize then
    fail .eproto
  else do
    let (version, offset) ← readField 2 bytes 0
    let (reserved, offset) ← readField 2 bytes offset
    if swapBytes 2 version ≠ qpPayloadVersion then
      fail .eprotonosupport
    else if reserved ≠ 0 then
      fail .eproto
    else
      return offset

def encodeQpCreateAttributes (attributes : QpCreateAttributes) : Except Errno Bytes :=
  .ok (littleEndian 2 (swapBytes 2 qpPayloadVersion) ++ littleEndian 2 0 ++
    littleEndian 8 (swapBytes64 attributes.sendCqIdentity) ++
    littleEndian 8 (swapBytes64 attributes.recvCqIdentity) ++
    littleEndian 4 (swapBytes 4 attributes.maxSendWr) ++
    littleEndian 4 (swapBytes 4 attributes.maxRecvWr) ++
    littleEndian 4 (swapBytes 4 attributes.maxSendSge) ++
    littleEndian 4 (swapBytes 4 attributes.maxRecvSge) ++
    littleEndian 4 (swapBytes 4 attributes.qpType) ++
    littleEndian 4 (swapBytes 4 attributes.sqSigAll))

/-- `decode_qp_create_attributes`, up to the assignment of its output. -/
def readQpCreateAttributes (bytes : Bytes) (attributes : Option QpCreateAttributes) :
    Checked Errno QpCreateAttributes :=
  if attributes = none ∨ bytes.length ≠ qpCreatePayloadSize then
    fail .eproto
  else do
    let (version, offset) ← readField 2 bytes 0
    let (reserved, offset) ← readField 2 bytes offset
    let (sendCq, offset) ← readField 8 bytes offset
    let (recvCq, offset) ← readField 8 bytes offset
    let (maxSendWr, offset) ← readField 4 bytes offset
    let (maxRecvWr, offset) ← readField 4 bytes offset
    let (maxSendSge, offset) ← readField 4 bytes offset
    let (maxRecvSge, offset) ← readField 4 bytes offset
    let (qpType, offset) ← readField 4 bytes offset
    let (sqSigAll, _) ← readField 4 bytes offset
    if swapBytes 2 version ≠ qpPayloadVersion then
      fail .eprotonosupport
    else if reserved ≠ 0 then
      fail .eproto
    else
      return {
        sendCqIdentity := swapBytes64 sendCq
        recvCqIdentity := swapBytes64 recvCq
        maxSendWr := swapBytes 4 maxSendWr
        maxRecvWr := swapBytes 4 maxRecvWr
        maxSendSge := swapBytes 4 maxSendSge
        maxRecvSge := swapBytes 4 maxRecvSge
        qpType := swapBytes 4 qpType
        sqSigAll := swapBytes 4 sqSigAll }

def decodeQpCreateAttributes (bytes : Bytes) (attributes : Option QpCreateAttributes) :
    Decoded Errno QpCreateAttributes :=
  .assign (readQpCreateAttributes bytes attributes) attributes

def encodeQueryPayload (mask : UInt32) : Bytes :=
  appendHeader ++ littleEndian 4 (swapBytes 4 mask.toNat)

/-- `decode_query_payload`, up to the assignment of its output. -/
def readQueryPayload (bytes : Bytes) (mask : Option UInt32) : Checked Errno UInt32 := do
  let offset ← readHeader bytes qpQueryPayloadSize
  if mask = none then
    fail .eproto
  else
    let (encoded, _) ← readField 4 bytes offset
    return .ofNat (swapBytes 4 encoded)

def decodeQueryPayload (bytes : Bytes) (mask : Option UInt32) : Decoded Errno UInt32 :=
  .assign (readQueryPayload bytes mask) mask

def encodeModifyPayload (attributes : QpAttributes) (mask : UInt32) : Bytes :=
  appendHeader ++ littleEndian 4 (swapBytes 4 mask.toNat) ++
    littleEndian 4 (swapBytes 4 attributes.state) ++
    littleEndian 4 (swapBytes 4 attributes.currentState) ++
    littleEndian 4 (swapBytes 4 attributes.accessFlags) ++
    littleEndian 1 attributes.timeout ++ littleEndian 1 attributes.retryCount ++
    littleEndian 1 attributes.rnrRetry ++ littleEndian 1 attributes.minRnrTimer

/-- `decode_modify_payload`, up to the assignment of its outputs. -/
def readModifyPayload (bytes : Bytes) (outputs : Option (QpAttributes × UInt32)) :
    Checked Errno (QpAttributes × UInt32) := do
  let offset ← readHeader bytes qpModifyPayloadSize
  if outputs = none then
    fail .eproto
  else
    let (encodedMask, offset) ← readField 4 bytes offset
    let (state, offset) ← readField 4 bytes offset
    let (current, offset) ← readField 4 bytes offset
    let (access, offset) ← readField 4 bytes offset
    let (timeout, offset) ← readField 1 bytes offset
    let (retryCount, offset) ← readField 1 bytes offset
    let (rnrRetry, offset) ← readField 1 bytes offset
    let (minRnrTimer, _) ← readField 1 bytes offset
    return (
      { state := swapBytes 4 state
        currentState := swapBytes 4 current
        accessFlags := swapBytes 4 access
        timeout
        retryCount
        rnrRetry
        minRnrTimer },
      .ofNat (swapBytes 4 encodedMask))

def decodeModifyPayload (bytes : Bytes) (outputs : Option (QpAttributes × UInt32)) :
    Decoded Errno (QpAttributes × UInt32) :=
  .assign (readModifyPayload bytes outputs) outputs

def encodeConnectPayload (qpNum : Nat) (attributes : QpAttributes) (mask : UInt32) : Bytes :=
  appendHeader ++ littleEndian 4 (swapBytes 4 mask.toNat) ++
    littleEndian 4 (swapBytes 4 qpNum) ++ littleEndian 1 attributes.timeout ++
    littleEndian 1 attributes.retryCount ++ littleEndian 1 attributes.rnrRetry ++
    littleEndian 1 attributes.minRnrTimer

/-- `decode_connect_payload`, up to the assignment of its outputs. -/
def readConnectPayload (bytes : Bytes) (outputs : Option (Nat × QpAttributes × UInt32)) :
    Checked Errno (Nat × QpAttributes × UInt32) := do
  let offset ← readHeader bytes qpConnectPayloadSize
  if outputs = none then
    fail .eproto
  else
    let (encodedMask, offset) ← readField 4 bytes offset
    let (encodedQpNum, offset) ← readField 4 bytes offset
    let (timeout, offset) ← readField 1 bytes offset
    let (retryCount, offset) ← readField 1 bytes offset
    let (rnrRetry, offset) ← readField 1 bytes offset
    let (minRnrTimer, _) ← readField 1 bytes offset
    return (swapBytes 4 encodedQpNum, { timeout, retryCount, rnrRetry, minRnrTimer },
      .ofNat (swapBytes 4 encodedMask))

def decodeConnectPayload (bytes : Bytes) (outputs : Option (Nat × QpAttributes × UInt32)) :
    Decoded Errno (Nat × QpAttributes × UInt32) :=
  .assign (readConnectPayload bytes outputs) outputs

def encodeConnInfo (qpNum : UInt32) : Bytes :=
  appendHeader ++ littleEndian 4 (swapBytes 4 qpNum.toNat)

def decodeConnInfo (bytes : Bytes) (qpNum : Option UInt32) : Decoded Errno UInt32 :=
  decodeQueryPayload bytes qpNum

def encodeSnapshot (record : QpRecord) : Bytes :=
  appendHeader ++ littleEndian 4 (swapBytes 4 record.qpNum) ++
    littleEndian 8 (swapBytes64 record.sendCqIdentity) ++
    littleEndian 8 (swapBytes64 record.recvCqIdentity) ++
    littleEndian 4 (swapBytes 4 record.sq.maxWr) ++
    littleEndian 4 (swapBytes 4 record.rq.maxWr) ++
    littleEndian 4 (swapBytes 4 record.sq.maxSge) ++
    littleEndian 4 (swapBytes 4 record.rq.maxSge) ++
    littleEndian 4 (swapBytes 4 record.qpType) ++
    littleEndian 4 (swapBytes 4 record.sqSigAll) ++
    littleEndian 4 (swapBytes 4 record.state) ++
    littleEndian 4 (swapBytes 4 record.state) ++
    littleEndian 4 (swapBytes 4 record.accessFlags) ++
    littleEndian 1 record.timeout ++ littleEndian 1 record.retryCount ++
    littleEndian 1 record.rnrRetry ++ littleEndian 1 record.minRnrTimer

/-- `decode_snapshot`, up to the assignment of its output. -/
def readSnapshot (bytes : Bytes) (snapshot : Option QpSnapshot) : Checked Errno QpSnapshot := do
  let offset ← readHeader bytes qpSnapshotPayloadSize
  if snapshot = none then
    fail .eproto
  else
    let (qpNum, offset) ← readField 4 bytes offset
    let (sendCq, offset) ← readField 8 bytes offset
    let (recvCq, offset) ← readField 8 bytes offset
    let (maxSendWr, offset) ← readField 4 bytes offset
    let (maxRecvWr, offset) ← readField 4 bytes offset
    let (maxSendSge, offset) ← readField 4 bytes offset
    let (maxRecvSge, offset) ← readField 4 bytes offset
    let (qpType, offset) ← readField 4 bytes offset
    let (sqSigAll, offset) ← readField 4 bytes offset
    let (state, offset) ← readField 4 bytes offset
    let (current, offset) ← readField 4 bytes offset
    let (access, offset) ← readField 4 bytes offset
    let (timeout, offset) ← readField 1 bytes offset
    let (retryCount, offset) ← readField 1 bytes offset
    let (rnrRetry, offset) ← readField 1 bytes offset
    let (minRnrTimer, _) ← readField 1 bytes offset
    return {
      qpNum := swapBytes 4 qpNum
      creation :=
        ⟨swapBytes64 sendCq, swapBytes64 recvCq, swapBytes 4 maxSendWr, swapBytes 4 maxRecvWr,
          swapBytes 4 maxSendSge, swapBytes 4 maxRecvSge, swapBytes 4 qpType,
          swapBytes 4 sqSigAll⟩
      attributes :=
        { state := swapBytes 4 state
          currentState := swapBytes 4 current
          accessFlags := swapBytes 4 access
          timeout
          retryCount
          rnrRetry
          minRnrTimer } }

def decodeSnapshot (bytes : Bytes) (snapshot : Option QpSnapshot) : Decoded Errno QpSnapshot :=
  .assign (readSnapshot bytes snapshot) snapshot

/-! ## Queue descriptors -/

def encodeQueueDescriptors (descriptors : List QueueDescriptor) : Except Errno Bytes :=
  if descriptors = [] ∨ 2 ^ 16 - 1 < descriptors.length then
    .error .einval
  else
    .ok (littleEndian 2 (swapBytes 2 queueDescriptorPayloadVersion) ++
      littleEndian 2 (swapBytes 2 descriptors.length) ++
      descriptors.flatMap fun descriptor =>
        littleEndian 4 (swapBytes 4 descriptor.kind.code) ++
          littleEndian 4 (swapBytes 4 descriptor.capacity) ++
          littleEndian 4 (swapBytes 4 descriptor.slotStride) ++ littleEndian 4 0)

/-- The `read` inside `decode_queue_descriptors`, which relies on the offset being inside the
buffer. -/
def readWord (width : Nat) (bytes : Bytes) (offset : Nat) : Checked Errno (Nat × Nat) := do
  let left ← sizeSub bytes.length offset
  if left < width then
    fail .eproto
  else
    load width bytes offset

def queueDescriptorWireSize : Nat := 16

/-- The loop of `decode_queue_descriptors`. -/
def readDescriptors (bytes : Bytes) : Nat → Nat → Checked Errno (List QueueDescriptor)
  | _, 0 => .ok []
  | offset, count + 1 => do
      let (kind, offset) ← readWord 4 bytes offset
      let (capacity, offset) ← readWord 4 bytes offset
      let (stride, offset) ← readWord 4 bytes offset
      let (reserved, offset) ← readWord 4 bytes offset
      let capacity := swapBytes 4 capacity
      let stride := swapBytes 4 stride
      match QueueKind.ofCode (swapBytes 4 kind) with
      | none => fail .eproto
      | some kind =>
          if reserved ≠ 0 ∨ capacity = 0 ∨ stride = 0 ∨ stride % sharedRingCacheLine ≠ 0 then
            fail .eproto
          else
            let descriptors ← readDescriptors bytes offset count
            return ⟨kind, capacity, stride⟩ :: descriptors

/-- `decode_queue_descriptors`, up to the assignment of its output. -/
def readQueueDescriptors (bytes : Bytes) (descriptors : Option (List QueueDescriptor)) :
    Checked Errno (List QueueDescriptor) :=
  if descriptors = none ∨ bytes.length < 4 then
    fail .eproto
  else do
    let (version, offset) ← readWord 2 bytes 0
    let (count, offset) ← readWord 2 bytes offset
    if swapBytes 2 version ≠ queueDescriptorPayloadVersion then
      fail .eprotonosupport
    else
      let count := swapBytes 2 count
      if count = 0 ∨ bytes.length ≠ 4 + count * queueDescriptorWireSize then
        fail .eproto
      else
        readDescriptors bytes offset count

def decodeQueueDescriptors (bytes : Bytes) (descriptors : Option (List QueueDescriptor)) :
    Decoded Errno (List QueueDescriptor) :=
  .assign (readQueueDescriptors bytes descriptors) descriptors

end Ugdr.Control.Payload
