import Ugdr.Ipc.Protocol

/-! # The client

What `IpcClient::call` makes of the answer to its request.
-/

namespace Ugdr.Ipc

open Checked

def acceptResponse (request : Envelope) : ReceiveResult → Except Errno IpcMessage
  | .eof => .error (.other 104)
  | .error errorNumber => .error errorNumber
  | .message response =>
      if response.envelope.flags &&& responseFlag = 0 ∨
          response.envelope.requestId ≠ request.requestId ∨
          response.envelope.method ≠ request.method then
        .error .eproto
      else
        .ok response

/-- The part of `call` that follows the sending of the request. -/
def receiveResponse (request : Envelope) (received : Received) :
    Checked Errno IpcMessage := do
  match acceptResponse request (← receiveMessage received) with
  | .error status => fail status
  | .ok response => return response

end Ugdr.Ipc
