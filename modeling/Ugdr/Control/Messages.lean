import Ugdr.Foundation.Bytes
import Ugdr.Queue.Descriptors

/-! # Control messages

Requests and responses of the control plane and the payloads they carry in their
`opaque` field.
-/

namespace Ugdr.Control

open Wire Queue

inductive ControlMethod
  | listDevices
  | createContext
  | destroyContext
  | createPd
  | destroyPd
  | registerMr
  | deregisterMr
  | createCq
  | destroyCq
  | createQp
  | destroyQp
  | queryQp
  | modifyQp
  | queryQpConnInfo
  | connectQp
  deriving DecidableEq, Repr

def ControlMethod.ofCode : Nat → Option ControlMethod
  | 1 => some listDevices
  | 2 => some createContext
  | 3 => some destroyContext
  | 4 => some createPd
  | 5 => some destroyPd
  | 6 => some registerMr
  | 7 => some deregisterMr
  | 8 => some createCq
  | 9 => some destroyCq
  | 10 => some createQp
  | 11 => some destroyQp
  | 12 => some queryQp
  | 13 => some modifyQp
  | 14 => some queryQpConnInfo
  | 15 => some connectQp
  | _ => none

/-- `DecodedControlRequest`. The source's `opaque` field is `payload` here. -/
structure ControlRequest where
  method : Nat
  objectIdentity : Nat := 0
  length : Nat := 0
  access : UInt32 := 0
  payload : Bytes := []
  fdIndices : List Nat := []
  fileDescriptors : List Nat := []
  deriving DecidableEq, Repr

/-- `ControlServiceResult`. A descriptor that is sent along is named by the queue
it maps. -/
structure ControlResponse where
  method : Nat
  status : Status := none
  objectIdentity : Nat := 0
  payload : Bytes := []
  fdIndices : List Nat := []
  fileDescriptors : List QueueDescriptor := []
  deriving DecidableEq, Repr

def responseFor (request : ControlRequest) (status : Status) : ControlResponse :=
  { method := request.method, status := status }

def emptyShapeExceptPayload (request : ControlRequest) : Bool :=
  request.length = 0 ∧ request.access = 0 ∧ request.fdIndices = [] ∧
    request.fileDescriptors = []

def emptyShape (request : ControlRequest) : Bool :=
  emptyShapeExceptPayload request ∧ request.payload = []

/-! ## Devices -/

structure DeviceDescriptor where
  identity : Nat
  name : Bytes
  deriving DecidableEq, Repr

def maxDeviceNameLength : Nat := 255

def maxPayloadSize : Nat := 1024 * 1024

/-- The size check made for each device in turn. -/
def deviceListSize (size : Nat) : List DeviceDescriptor → Except Errno Nat
  | [] => .ok size
  | device :: devices =>
      if device.identity = 0 ∨ maxDeviceNameLength < device.name.length then
        .error .einval
      else
        let size := size + 8 + 2 + device.name.length
        if maxPayloadSize < size then .error .emsgsize else deviceListSize size devices

def encodeDeviceList (devices : List DeviceDescriptor) : Except Errno Bytes :=
  if 2 ^ 32 - 1 < devices.length then
    .error .einval
  else
    match deviceListSize 4 devices with
    | .error status => .error status
    | .ok _ =>
        .ok (encode 4 devices.length ++ devices.flatMap fun device =>
          encode 8 device.identity ++ encode 2 device.name.length ++ device.name)

/-! ## Memory regions -/

def mrPayloadVersion : Nat := 1

def mrRegistrationFixedSize : Nat := 48

def gpuUuidSize : Nat := 16

def maxCudaIpcHandleSize : Nat := 256

structure ExportedCudaMemory where
  gpuUuid : Bytes
  clientAddress : Nat
  allocationSize : Nat
  allocationOffset : Nat
  length : Nat
  ipcHandle : Bytes
  deriving DecidableEq, Repr

structure CudaIpcMapping where
  gpuUuid : Bytes
  daemonBaseAddress : Nat
  deriving DecidableEq, Repr

def uuidIsZero (uuid : Bytes) : Bool :=
  uuid.all fun value => value = 0

def validMemory (memory : ExportedCudaMemory) : Bool :=
  ¬ (uuidIsZero memory.gpuUuid ∨ memory.clientAddress = 0 ∨ memory.length = 0 ∨
    memory.allocationSize = 0 ∨ memory.allocationSize < memory.allocationOffset ∨
    memory.allocationSize - memory.allocationOffset < memory.length ∨
    memory.clientAddress < memory.allocationOffset ∨ memory.ipcHandle = [] ∨
    maxCudaIpcHandleSize < memory.ipcHandle.length)

def decodeMrRegistration (bytes : Bytes) (length : Nat) :
    Except Errno ExportedCudaMemory :=
  if bytes.length < mrRegistrationFixedSize then
    .error .eproto
  else
    match do
      let (version, bytes) ← read 2 bytes
      let (reserved, bytes) ← read 2 bytes
      some (version, reserved, bytes) with
    | none => .error .eproto
    | some (version, reserved, bytes) =>
        if version ≠ mrPayloadVersion then
          .error .eprotonosupport
        else if reserved ≠ 0 then
          .error .eproto
        else
          match do
            let (clientAddress, rest) ← read 8 (bytes.drop gpuUuidSize)
            let (allocationSize, rest) ← read 8 rest
            let (allocationOffset, rest) ← read 8 rest
            let (handleSize, rest) ← read 4 rest
            some (handleSize, ExportedCudaMemory.mk (bytes.take gpuUuidSize) clientAddress
              allocationSize allocationOffset length rest) with
          | none => .error .eproto
          | some (handleSize, memory) =>
              if handleSize = 0 ∨ maxCudaIpcHandleSize < handleSize ∨
                  handleSize ≠ memory.ipcHandle.length then
                .error .eproto
              else if validMemory memory = false then
                .error .einval
              else
                .ok memory

structure MrRegistrationResult where
  clientAddress : Nat
  length : Nat
  lkey : Nat
  rkey : Nat
  deriving DecidableEq, Repr

def encodeMrRegistrationResult (result : MrRegistrationResult) : Except Errno Bytes :=
  if result.clientAddress = 0 ∨ result.length = 0 ∨ result.lkey = 0 ∨ result.rkey = 0 then
    .error .einval
  else
    .ok (encode 2 mrPayloadVersion ++ encode 2 0 ++ encode 8 result.clientAddress ++
      encode 8 result.length ++ encode 4 result.lkey ++ encode 4 result.rkey)

/-! ## Queue descriptors -/

def queueDescriptorPayloadVersion : Nat := 1

def encodeQueueDescriptors (descriptors : List QueueDescriptor) : Except Errno Bytes :=
  if descriptors = [] ∨ 2 ^ 16 - 1 < descriptors.length then
    .error .einval
  else
    .ok (encode 2 queueDescriptorPayloadVersion ++ encode 2 descriptors.length ++
      descriptors.flatMap fun descriptor =>
        encode 4 descriptor.kind.code ++ encode 4 descriptor.capacity ++
          encode 4 descriptor.slotStride ++ encode 4 0)

/-! ## Queue pairs -/

def qpPayloadVersion : Nat := 1

def qpTypeRc : Nat := 2

def qpStateReset : Nat := 0
def qpStateInit : Nat := 1
def qpStateRtr : Nat := 2
def qpStateRts : Nat := 3
def qpStateSqd : Nat := 4
def qpStateSqe : Nat := 5
def qpStateErr : Nat := 6

def qpAccessRemoteWrite : Nat := 2

def qpMaskState : UInt32 := (1 : UInt32) <<< 0
def qpMaskCurrentState : UInt32 := (1 : UInt32) <<< 1
def qpMaskAccess : UInt32 := (1 : UInt32) <<< 3
def qpMaskTimeout : UInt32 := (1 : UInt32) <<< 9
def qpMaskRetryCount : UInt32 := (1 : UInt32) <<< 10
def qpMaskRnrRetry : UInt32 := (1 : UInt32) <<< 11
def qpMaskMinRnrTimer : UInt32 := (1 : UInt32) <<< 15

def qpConnectMask : UInt32 :=
  qpMaskTimeout ||| qpMaskRetryCount ||| qpMaskRnrRetry ||| qpMaskMinRnrTimer

structure QpCreateAttributes where
  sendCqIdentity : Nat
  recvCqIdentity : Nat
  maxSendWr : Nat
  maxRecvWr : Nat
  maxSendSge : Nat
  maxRecvSge : Nat
  qpType : Nat
  sqSigAll : Nat
  deriving DecidableEq, Repr

structure QpAttributes where
  state : Nat := qpStateReset
  currentState : Nat := qpStateReset
  accessFlags : Nat := 0
  timeout : Nat := 0
  retryCount : Nat := 0
  rnrRetry : Nat := 0
  minRnrTimer : Nat := 0
  deriving DecidableEq, Repr

def validQpCreateAttributes (attributes : QpCreateAttributes) : Bool :=
  attributes.sendCqIdentity ≠ 0 ∧ attributes.recvCqIdentity ≠ 0 ∧
    attributes.maxSendWr ≠ 0 ∧ attributes.maxRecvWr ≠ 0 ∧ attributes.maxSendSge ≠ 0 ∧
    attributes.maxRecvSge ≠ 0 ∧ attributes.qpType = qpTypeRc ∧ attributes.sqSigAll ≤ 1

def qpCreatePayloadSize : Nat := 44

def decodeQpCreateAttributes (bytes : Bytes) : Except Errno QpCreateAttributes :=
  if bytes.length ≠ qpCreatePayloadSize then
    .error .eproto
  else
    match do
      let (version, bytes) ← read 2 bytes
      let (reserved, bytes) ← read 2 bytes
      let (sendCqIdentity, bytes) ← read 8 bytes
      let (recvCqIdentity, bytes) ← read 8 bytes
      let (maxSendWr, bytes) ← read 4 bytes
      let (maxRecvWr, bytes) ← read 4 bytes
      let (maxSendSge, bytes) ← read 4 bytes
      let (maxRecvSge, bytes) ← read 4 bytes
      let (qpType, bytes) ← read 4 bytes
      let (sqSigAll, _) ← read 4 bytes
      some (version, reserved, QpCreateAttributes.mk sendCqIdentity recvCqIdentity
        maxSendWr maxRecvWr maxSendSge maxRecvSge qpType sqSigAll) with
    | none => .error .eproto
    | some (version, reserved, attributes) =>
        if version ≠ qpPayloadVersion then
          .error .eprotonosupport
        else if reserved ≠ 0 then
          .error .eproto
        else
          .ok attributes

/-- The checks shared by the query, modify and connect payloads. -/
def readHeader (bytes : Bytes) (expectedSize : Nat) : Except Errno Bytes :=
  if bytes.length ≠ expectedSize then
    .error .eproto
  else
    match do
      let (version, bytes) ← read 2 bytes
      let (reserved, bytes) ← read 2 bytes
      some (version, reserved, bytes) with
    | none => .error .eproto
    | some (version, reserved, bytes) =>
        if version ≠ qpPayloadVersion then
          .error .eprotonosupport
        else if reserved ≠ 0 then
          .error .eproto
        else
          .ok bytes

def qpQueryPayloadSize : Nat := 8

def decodeQueryPayload (bytes : Bytes) : Except Errno UInt32 :=
  match readHeader bytes qpQueryPayloadSize with
  | .error status => .error status
  | .ok bytes =>
      match read 4 bytes with
      | none => .error .eproto
      | some (mask, _) => .ok (.ofNat mask)

def qpModifyPayloadSize : Nat := 24

def decodeModifyPayload (bytes : Bytes) : Except Errno (QpAttributes × UInt32) :=
  match readHeader bytes qpModifyPayloadSize with
  | .error status => .error status
  | .ok bytes =>
      match do
        let (mask, bytes) ← read 4 bytes
        let (state, bytes) ← read 4 bytes
        let (currentState, bytes) ← read 4 bytes
        let (accessFlags, bytes) ← read 4 bytes
        let (timeout, bytes) ← read 1 bytes
        let (retryCount, bytes) ← read 1 bytes
        let (rnrRetry, bytes) ← read 1 bytes
        let (minRnrTimer, _) ← read 1 bytes
        some (QpAttributes.mk state currentState accessFlags timeout retryCount rnrRetry
          minRnrTimer, UInt32.ofNat mask) with
      | none => .error .eproto
      | some decoded => .ok decoded

def qpConnectPayloadSize : Nat := 16

/-- The remote QP number, the retry attributes and the attribute mask. -/
def decodeConnectPayload (bytes : Bytes) : Except Errno (Nat × QpAttributes × UInt32) :=
  match readHeader bytes qpConnectPayloadSize with
  | .error status => .error status
  | .ok bytes =>
      match do
        let (mask, bytes) ← read 4 bytes
        let (qpNum, bytes) ← read 4 bytes
        let (timeout, bytes) ← read 1 bytes
        let (retryCount, bytes) ← read 1 bytes
        let (rnrRetry, bytes) ← read 1 bytes
        let (minRnrTimer, _) ← read 1 bytes
        some (qpNum, QpAttributes.mk qpStateReset qpStateReset 0 timeout retryCount rnrRetry
          minRnrTimer, UInt32.ofNat mask) with
      | none => .error .eproto
      | some decoded => .ok decoded

def encodeConnInfo (qpNum : Nat) : Bytes :=
  encode 2 qpPayloadVersion ++ encode 2 0 ++ encode 4 qpNum

def validQueryMask (mask : UInt32) : Bool :=
  mask &&& ~~~(qpMaskState ||| qpMaskCurrentState ||| qpMaskAccess ||| qpConnectMask) = 0

def validRetryAttributes (attributes : QpAttributes) : Bool :=
  attributes.retryCount ≤ 7 ∧ attributes.rnrRetry ≤ 7 ∧ attributes.timeout ≤ 31 ∧
    attributes.minRnrTimer ≤ 31

end Ugdr.Control
