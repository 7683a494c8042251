import Ugdr.Errno
import Ugdr.Foundation.Checked

/-! # Messages on a socket

The envelope in front of every message, and `send_message` and `receive_message` up to the
system calls they make.
-/

namespace Ugdr.Ipc

open Wire Checked

def protocolMagic : UInt32 := 0x49504331
def protocolMajor : UInt16 := 1
def protocolMinor : UInt16 := 0
def responseFlag : UInt32 := 1
def allowedFlags : UInt32 := responseFlag
def wireHeaderSize : Nat := 36
def maxPayloadSize : Nat := 1024 * 1024
def maxFileDescriptors : Nat := 16

/-- The number in a `UniqueFd`. -/
abbrev FileDescriptor := Int

structure Envelope where
  magic : UInt32 := protocolMagic
  versionMajor : UInt16 := protocolMajor
  versionMinor : UInt16 := protocolMinor
  method : UInt32 := 0
  flags : UInt32 := 0
  requestId : UInt64 := 0
  status : Int32 := 0
  payloadLength : UInt32 := 0
  fdCount : UInt32 := 0
  deriving DecidableEq, Repr

structure IpcMessage where
  envelope : Envelope := {}
  payload : Bytes := []
  fileDescriptors : List FileDescriptor := []
  deriving DecidableEq, Repr

inductive ReceiveResult
  | message (message : IpcMessage)
  | eof
  | error (errorNumber : Errno)
  deriving DecidableEq, Repr

/-! ## The header -/

def encodeHeader (envelope : Envelope) : Bytes :=
  littleEndian 4 (swapBytes 4 envelope.magic.toNat) ++
    littleEndian 2 (swapBytes 2 envelope.versionMajor.toNat) ++
    littleEndian 2 (swapBytes 2 envelope.versionMinor.toNat) ++
    littleEndian 4 (swapBytes 4 envelope.method.toNat) ++
    littleEndian 4 (swapBytes 4 envelope.flags.toNat) ++
    littleEndian 8 (swapBytes64 envelope.requestId.toNat) ++
    littleEndian 4 (swapBytes 4 envelope.status.toUInt32.toNat) ++
    littleEndian 4 (swapBytes 4 envelope.payloadLength.toNat) ++
    littleEndian 4 (swapBytes 4 envelope.fdCount.toNat)

def decodeHeader (buffer : Bytes) : Checked Errno Envelope := do
  let (magic, offset) ← load 4 buffer 0
  let (versionMajor, offset) ← load 2 buffer offset
  let (versionMinor, offset) ← load 2 buffer offset
  let (method, offset) ← load 4 buffer offset
  let (flags, offset) ← load 4 buffer offset
  let (requestId, offset) ← load 8 buffer offset
  let (status, offset) ← load 4 buffer offset
  let (payloadLength, offset) ← load 4 buffer offset
  let (fdCount, _) ← load 4 buffer offset
  return {
    magic := .ofNat (swapBytes 4 magic)
    versionMajor := .ofNat (swapBytes 2 versionMajor)
    versionMinor := .ofNat (swapBytes 2 versionMinor)
    method := .ofNat (swapBytes 4 method)
    flags := .ofNat (swapBytes 4 flags)
    requestId := .ofNat (swapBytes64 requestId)
    status := (UInt32.ofNat (swapBytes 4 status)).toInt32
    payloadLength := .ofNat (swapBytes 4 payloadLength)
    fdCount := .ofNat (swapBytes 4 fdCount) }

/-! ## The socket -/

/-- What is given to `sendmsg`: the bytes of the two vectors, and the descriptors of the
control message, if there are any. -/
structure Packet where
  bytes : Bytes
  fileDescriptors : List FileDescriptor
  deriving DecidableEq, Repr

/-- The checks of `send_message`, with the packet it then sends. -/
def sendMessage (message : IpcMessage) : Except Errno Packet :=
  if maxPayloadSize < message.payload.length ∨
      maxFileDescriptors < message.fileDescriptors.length ∨
      2 ^ 32 - 1 < message.payload.length then
    .error .einval
  else if message.fileDescriptors.any (fun descriptor => descriptor < 0) then
    .error (.other 9)
  else
    let envelope :=
      { message.envelope with
        payloadLength := .ofNat message.payload.length
        fdCount := .ofNat message.fileDescriptors.length }
    .ok ⟨encodeHeader envelope ++ message.payload, message.fileDescriptors⟩

/-- What `sendmsg` answers: an error, or that it has taken the bytes up to the last
`missing + 1`, or all of them. -/
inductive Transmitted
  | failed (errorNumber : Errno)
  | short (missing : Nat)
  | whole
  deriving DecidableEq, Repr

/-- What `send_message` returns after that. -/
def Transmitted.status : Transmitted → Status
  | .failed errorNumber => some errorNumber
  | .short _ => some .eio
  | .whole => none

/-- What the socket has of a packet that it does not take as a whole. -/
def Packet.shorten (packet : Packet) (missing : Nat) : Packet :=
  { packet with bytes := packet.bytes.take (packet.bytes.length - (missing + 1)) }

/-- A socket whose buffer takes packets of a limited size. -/
def Transmitted.within (limit : Nat) (packet : Packet) : Transmitted :=
  if packet.bytes.length ≤ limit then .whole else .failed .emsgsize

/-- One control message: whether it carries descriptors, these, and how many bytes of its
data are left over. -/
structure ControlData where
  rights : Bool
  values : List FileDescriptor
  leftover : Nat
  deriving DecidableEq, Repr

/-- What `recvmsg` returns: an error, or the bytes it has stored in the buffer, which are no
more than the buffer holds. -/
inductive Received
  | failed (errorNumber : Errno)
  | data (bytes : Bytes) (fits : bytes.length ≤ wireHeaderSize + maxPayloadSize)
      (truncated : Bool) (control : List ControlData)

/-- The loop over the control messages: the descriptors found so far, and whether something
was wrong. -/
def collectDescriptors (descriptors : List FileDescriptor) (invalid : Bool) :
    List ControlData → List FileDescriptor × Bool
  | [] => (descriptors, invalid)
  | header :: headers =>
      if header.rights = false then
        collectDescriptors descriptors true headers
      else
        collectDescriptors (descriptors ++ header.values)
          (invalid || decide (header.leftover ≠ 0 ∨
            maxFileDescriptors < descriptors.length + header.values.length)) headers

def receiveMessage : Received → Checked Errno ReceiveResult
  | .failed errorNumber => .ok (.error errorNumber)
  | .data bytes _ truncated control =>
      if bytes.length = 0 then
        .ok .eof
      else
        let (descriptors, invalidControl) := collectDescriptors [] truncated control
        if invalidControl ∨ bytes.length < wireHeaderSize then
          .ok (.error .emsgsize)
        else do
          -- The vector behind the buffer has its full size, whatever was received.
          let buffer := bytes ++
            List.replicate (wireHeaderSize + maxPayloadSize - bytes.length) 0
          let envelope ← decodeHeader buffer
          let payloadSize ← sizeSub bytes.length wireHeaderSize
          if envelope.magic ≠ protocolMagic ∨ envelope.versionMajor ≠ protocolMajor ∨
              protocolMinor < envelope.versionMinor then
            return .error .eprotonosupport
          else if envelope.flags &&& ~~~allowedFlags ≠ 0 ∨
              envelope.payloadLength.toNat ≠ payloadSize ∨
              envelope.fdCount.toNat ≠ descriptors.length then
            return .error .eproto
          else
            let payload ← slice buffer wireHeaderSize bytes.length
            return .message ⟨envelope, payload, descriptors⟩

/-- A socket that delivers the bytes and the descriptors of a packet intact. -/
def deliver (packet : Packet)
    (fits : packet.bytes.length ≤ wireHeaderSize + maxPayloadSize) : Received :=
  .data packet.bytes fits false
    (if packet.fileDescriptors = [] then [] else [⟨true, packet.fileDescriptors, 0⟩])

end Ugdr.Ipc
