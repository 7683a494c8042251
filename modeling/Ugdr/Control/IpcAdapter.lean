import Ugdr.Ipc.Protocol

/-! # Control messages on the wire

`encode_request`, `decode_request`, `encode_response` and `decode_response`: a fixed part,
the opaque bytes, and the indices of the descriptors that come with the message.
-/

namespace Ugdr.Control

open Wire Checked Ipc

def controlPayloadVersion : Nat := 1
def requestFixedSize : Nat := 32
def responseFixedSize : Nat := 20

/-- The source's `opaque` field is `payload` here. -/
structure UgdrControlRequest where
  method : UInt32 := 0
  objectIdentity : UInt64 := 0
  length : UInt64 := 0
  access : UInt32 := 0
  payload : Bytes := []
  fdIndices : List UInt32 := []
  deriving DecidableEq, Repr

structure UgdrControlResponse where
  method : UInt32 := 0
  status : Int32 := 0
  objectIdentity : UInt64 := 0
  payload : Bytes := []
  fdIndices : List UInt32 := []
  deriving DecidableEq, Repr

structure DecodedControlRequest where
  value : UgdrControlRequest
  fileDescriptors : List FileDescriptor
  deriving DecidableEq, Repr

structure DecodedControlResponse where
  value : UgdrControlResponse
  fileDescriptors : List FileDescriptor
  deriving DecidableEq, Repr

/-- The checked `read` of the source. Each caller answers `EPROTO` when it fails. -/
def readField (width : Nat) (payload : Bytes) (offset : Nat) : Checked Errno (Nat × Nat) :=
  if payload.length < offset ∨ payload.length - offset < width then
    fail .eproto
  else
    load width payload offset

def validIndices (indices : List UInt32) (descriptorCount : Nat) : Bool :=
  indices.all fun index => index.toNat < descriptorCount

def validateLengths (opaqueSize indexCount fixedSize : Nat) : Checked Errno Unit := do
  let room ← sizeSub maxPayloadSize fixedSize
  if 2 ^ 32 - 1 < opaqueSize ∨ 2 ^ 32 - 1 < indexCount ∨ room / 4 < indexCount then
    fail .emsgsize
  else
    let indexBytes ← sizeMul indexCount 4
    let left ← sizeSub room indexBytes
    if left < opaqueSize then
      fail .emsgsize
    else
      return ()

def appendIndices (indices : List UInt32) : Bytes :=
  indices.flatMap fun index => littleEndian 4 (swapBytes 4 index.toNat)

def readIndices (payload : Bytes) : Nat → Nat → Checked Errno (List UInt32)
  | _, 0 => .ok []
  | offset, count + 1 => do
      let (wireValue, offset) ← readField 4 payload offset
      let indices ← readIndices payload offset count
      return .ofNat (swapBytes 4 wireValue) :: indices

/-- The part of a payload behind its fixed fields, which both kinds of message share. -/
def readBody (payload : Bytes) (offset opaqueSize indexCount descriptorCount : Nat) :
    Checked Errno (Bytes × List UInt32) := do
  let indexBytes ← sizeMul indexCount 4
  let remaining ← sizeSub payload.length offset
  if remaining < opaqueSize then
    fail .eproto
  else
    let left ← sizeSub remaining opaqueSize
    if left ≠ indexBytes then
      fail .eproto
    else
      let stop ← sizeAdd offset opaqueSize
      let content ← slice payload offset stop
      let indices ← readIndices payload stop indexCount
      if validIndices indices descriptorCount = false then
        fail .eproto
      else
        return (content, indices)

def encodeRequest (request : UgdrControlRequest) (fileDescriptors : List FileDescriptor) :
    Checked Errno IpcMessage :=
  if request.method = 0 ∨ maxFileDescriptors < fileDescriptors.length ∨
      validIndices request.fdIndices fileDescriptors.length = false then
    fail .einval
  else do
    validateLengths request.payload.length request.fdIndices.length requestFixedSize
    let payload :=
      littleEndian 2 (swapBytes 2 controlPayloadVersion) ++ littleEndian 2 0 ++
        littleEndian 8 (swapBytes64 request.objectIdentity.toNat) ++
        littleEndian 8 (swapBytes64 request.length.toNat) ++
        littleEndian 4 (swapBytes 4 request.access.toNat) ++
        littleEndian 4 (swapBytes 4 request.payload.length) ++
        littleEndian 4 (swapBytes 4 request.fdIndices.length) ++
        request.payload ++ appendIndices request.fdIndices
    return {
      envelope :=
        { method := request.method
          payloadLength := .ofNat payload.length
          fdCount := .ofNat fileDescriptors.length }
      payload
      fileDescriptors }

def decodeRequest (message : IpcMessage) : Checked Errno DecodedControlRequest :=
  if message.envelope.method = 0 ∨ message.envelope.flags &&& responseFlag ≠ 0 then
    fail .einval
  else if maxFileDescriptors < message.fileDescriptors.length ∨
      message.envelope.fdCount.toNat ≠ message.fileDescriptors.length ∨
      message.envelope.payloadLength.toNat ≠ message.payload.length ∨
      message.payload.length < requestFixedSize then
    fail .eproto
  else do
    let (version, offset) ← readField 2 message.payload 0
    let (reserved, offset) ← readField 2 message.payload offset
    let (identity, offset) ← readField 8 message.payload offset
    let (length, offset) ← readField 8 message.payload offset
    let (access, offset) ← readField 4 message.payload offset
    let (opaqueSize, offset) ← readField 4 message.payload offset
    let (indexCount, offset) ← readField 4 message.payload offset
    if swapBytes 2 version ≠ controlPayloadVersion ∨ reserved ≠ 0 then
      fail .eprotonosupport
    else
      let (payload, fdIndices) ← readBody message.payload offset (swapBytes 4 opaqueSize)
        (swapBytes 4 indexCount) message.fileDescriptors.length
      return {
        value :=
          { method := message.envelope.method
            objectIdentity := .ofNat (swapBytes64 identity)
            length := .ofNat (swapBytes64 length)
            access := .ofNat (swapBytes 4 access)
            payload
            fdIndices }
        fileDescriptors := message.fileDescriptors }

def encodeResponse (response : UgdrControlResponse) (fileDescriptors : List FileDescriptor) :
    Checked Errno IpcMessage :=
  if response.method = 0 ∨ maxFileDescriptors < fileDescriptors.length ∨
      validIndices response.fdIndices fileDescriptors.length = false then
    fail .einval
  else do
    validateLengths response.payload.length response.fdIndices.length responseFixedSize
    let payload :=
      littleEndian 2 (swapBytes 2 controlPayloadVersion) ++ littleEndian 2 0 ++
        littleEndian 8 (swapBytes64 response.objectIdentity.toNat) ++
        littleEndian 4 (swapBytes 4 response.payload.length) ++
        littleEndian 4 (swapBytes 4 response.fdIndices.length) ++
        response.payload ++ appendIndices response.fdIndices
    return {
      envelope :=
        { method := response.method
          flags := responseFlag
          status := response.status
          payloadLength := .ofNat payload.length
          fdCount := .ofNat fileDescriptors.length }
      payload
      fileDescriptors }

def decodeResponse (message : IpcMessage) : Checked Errno DecodedControlResponse :=
  if message.envelope.method = 0 ∨ message.envelope.flags &&& responseFlag = 0 then
    fail .einval
  else if maxFileDescriptors < message.fileDescriptors.length ∨
      message.envelope.fdCount.toNat ≠ message.fileDescriptors.length ∨
      message.envelope.payloadLength.toNat ≠ message.payload.length ∨
      message.payload.length < responseFixedSize then
    fail .eproto
  else do
    let (version, offset) ← readField 2 message.payload 0
    let (reserved, offset) ← readField 2 message.payload offset
    let (identity, offset) ← readField 8 message.payload offset
    let (opaqueSize, offset) ← readField 4 message.payload offset
    let (indexCount, offset) ← readField 4 message.payload offset
    if swapBytes 2 version ≠ controlPayloadVersion ∨ reserved ≠ 0 then
      fail .eprotonosupport
    else
      let (payload, fdIndices) ← readBody message.payload offset (swapBytes 4 opaqueSize)
        (swapBytes 4 indexCount) message.fileDescriptors.length
      return {
        value :=
          { method := message.envelope.method
            status := message.envelope.status
            objectIdentity := .ofNat (swapBytes64 identity)
            payload
            fdIndices }
        fileDescriptors := message.fileDescriptors }

end Ugdr.Control
