import Ugdr.Control.IpcAdapter
import Ugdr.Control.QpHandlers
import Ugdr.Ipc.Client
import Ugdr.Ipc.Server

/-! # Control requests over a socket

`ControlIpcHandler`, which stands between the server and the services, and the call that the
client makes on the other side.
-/

namespace Ugdr.Control

open Wire Checked Ipc Queue

def statusCode : Status → Int32
  | none => 0
  | some status => .ofInt status.number

def DecodedControlRequest.toRequest (decoded : DecodedControlRequest) : ControlRequest :=
  { method := decoded.value.method.toNat
    objectIdentity := decoded.value.objectIdentity.toNat
    length := decoded.value.length.toNat
    access := decoded.value.access
    payload := decoded.value.payload
    fdIndices := decoded.value.fdIndices.map (·.toNat)
    fileDescriptors := decoded.fileDescriptors.map (·.toNat) }

/-- The response as it is encoded. The handler overwrites its method. -/
def ControlResponse.toWire (response : ControlResponse) (method : UInt32) :
    UgdrControlResponse :=
  { method
    status := statusCode response.status
    objectIdentity := .ofNat response.objectIdentity
    payload := response.payload
    fdIndices := response.fdIndices.map .ofNat }

/-! ## The handler -/

/-- What the handler gets to hear from outside: the environment of the service, and the
number of the descriptor that it is given for a queue. -/
structure HandlerInput where
  environment : Environment
  descriptorOf : QueueDescriptor → Nat

/-- An answer that says no more than its status. -/
def bareResponse (method : UInt32) (status : Errno) : IpcMessage :=
  { envelope := { method, status := .ofInt status.number } }

namespace ControlIpcHandler

/-- The part of `handle` that follows a successful decoding. -/
def respond (method : UInt32) (response : ControlResponse)
    (descriptorOf : QueueDescriptor → Nat) : Option IpcMessage :=
  match encodeResponse (response.toWire method)
      (response.fileDescriptors.map fun queue => (descriptorOf queue : Int)) with
  | .ok message => some message
  | .error (.failed status) => some (bareResponse method status)
  | .error _ => none

/-- `ControlIpcHandler::handle`. There is no answer when a decoder leaves its buffer. -/
def handle (service : QpService) (session : OwnerSessionId) (request : IpcMessage)
    (input : HandlerInput) : Option IpcMessage × QpService :=
  match decodeRequest request with
  | .error (.failed status) => (some (bareResponse request.envelope.method status), service)
  | .error _ => (none, service)
  | .ok decoded =>
      let (response, service) :=
        service.handle session decoded.toRequest input.environment
      (respond request.envelope.method response input.descriptorOf, service)

end ControlIpcHandler

def controlIpcHandler : IpcHandler QpService HandlerInput where
  handle := ControlIpcHandler.handle
  onDisconnect := QpService.onDisconnect

/-! ## The client -/

/-- `ControlClient::Impl::call`, from the answer of the daemon on. On every error the client
closes its connection. -/
def readResponse (request : Envelope) (received : Received) :
    Checked Errno DecodedControlResponse := do
  let response ← receiveResponse request received
  let decoded ← decodeResponse response
  if decoded.value.method ≠ request.method ∨ decoded.value.status < 0 then
    fail .eproto
  else
    return decoded

end Ugdr.Control
