import Mathlib.Data.List.Basic

/-! # Datagrams, transport and backend interface

The messages between a requester and a responder, the bounded transport that
carries them, and the requests and completions exchanged with a copy backend.
-/

namespace Ugdr.Worker

inductive DatagramOpcode
  | rdmaWrite
  | rdmaWriteWithImmediate
  deriving DecidableEq, Repr

inductive DatagramResult
  | success
  | rnr
  | remoteInvalidRequest
  | remoteAccessError
  | remoteOperationError
  | backendError
  deriving DecidableEq, Repr

structure RequestDatagram where
  parentRequestId : Nat := 0
  sourceQpNum : Nat := 0
  targetQpNum : Nat := 0
  opcode : DatagramOpcode := .rdmaWrite
  remoteAddress : Nat := 0
  rkey : Nat := 0
  immediateData : Nat := 0
  parentTotalLength : Nat := 0
  payloadOffset : Nat := 0
  sourceDaemonAddress : Nat := 0
  payloadLength : Nat := 0
  payloadIndex : Nat := 0
  payloadCount : Nat := 0
  deriving DecidableEq, Repr

structure ResponseDatagram where
  parentRequestId : Nat
  result : DatagramResult
  rnrDelay : Nat := 0
  deriving DecidableEq, Repr

structure LocalTransport where
  requestCapacity : Nat
  responseCapacity : Nat
  requests : List RequestDatagram := []
  responses : List ResponseDatagram := []
  deriving DecidableEq, Repr

namespace LocalTransport

def tryPushRequest (transport : LocalTransport) (request : RequestDatagram) :
    Option LocalTransport :=
  if transport.requestCapacity ≤ transport.requests.length then
    none
  else
    some { transport with requests := transport.requests ++ [request] }

def tryPopRequest (transport : LocalTransport) :
    Option (RequestDatagram × LocalTransport) :=
  match transport.requests with
  | [] => none
  | request :: requests => some (request, { transport with requests })

def tryPushResponse (transport : LocalTransport) (response : ResponseDatagram) :
    Option LocalTransport :=
  if transport.responseCapacity ≤ transport.responses.length then
    none
  else
    some { transport with responses := transport.responses ++ [response] }

def tryPopResponse (transport : LocalTransport) :
    Option (ResponseDatagram × LocalTransport) :=
  match transport.responses with
  | [] => none
  | response :: responses => some (response, { transport with responses })

end LocalTransport

structure BackendRequest where
  parentRequestId : Nat
  parentTotalLength : Nat
  payloadOffset : Nat
  sourceDaemonAddress : Nat
  targetDaemonAddress : Nat
  payloadLength : Nat
  payloadIndex : Nat
  payloadCount : Nat
  deriving DecidableEq, Repr

structure BackendCompletion where
  parentRequestId : Nat
  payloadIndex : Nat
  result : DatagramResult
  deriving DecidableEq, Repr

/-! ## Work completion codes -/

def wcSuccess : Nat := 0
def wcLocLenErr : Nat := 1
def wcLocQpOpErr : Nat := 2
def wcLocProtErr : Nat := 4
def wcRemInvReqErr : Nat := 9
def wcRemAccessErr : Nat := 10
def wcRemOpErr : Nat := 11
def wcRnrRetryExcErr : Nat := 13
def wcGeneralErr : Nat := 21

def wcRdmaWrite : Nat := 1
def wcRecvRdmaWithImm : Nat := 129

def wcWithImm : Nat := 2

def wrRdmaWrite : Nat := 0
def wrRdmaWriteWithImm : Nat := 1

def sendSignaled : Nat := 2

def completionStatus : DatagramResult → Nat
  | .success => wcSuccess
  | .rnr => wcRnrRetryExcErr
  | .remoteInvalidRequest => wcRemInvReqErr
  | .remoteAccessError => wcRemAccessErr
  | .remoteOperationError => wcRemOpErr
  | .backendError => wcGeneralErr

end Ugdr.Worker
