import Ugdr.Ipc.Protocol

/-! # The server

`IpcServer`: it gives every accepted connection a session number, hands the requests that
arrive to its handler, and tells the handler when a session is over.
-/

namespace Ugdr.Ipc

open Wire Checked

abbrev SessionId := Nat

/-- `IpcHandler`, with whatever it gets to hear from outside as its input. There is no
response when `handle` throws. -/
structure IpcHandler (State Input : Type) where
  handle : State → SessionId → IpcMessage → Input → Option IpcMessage × State
  onDisconnect : State → SessionId → State

structure Connection where
  socket : FileDescriptor
  sessionId : SessionId
  deriving DecidableEq, Repr

/-- The connections are in the order in which the source's map iterates over them. -/
structure IpcServer where
  listening : Bool := false
  connections : List Connection := []
  nextSessionId : SessionId := 1
  deriving DecidableEq, Repr

/-- The calls a handler gets. -/
inductive HandlerCall
  | handle (session : SessionId) (request : IpcMessage)
  | onDisconnect (session : SessionId)
  deriving DecidableEq, Repr

/-- The server with its handler. Since the server was started, the number of session numbers
it has given away, the sessions it has opened and the calls it has made are recorded. -/
structure Serving (State : Type) where
  server : IpcServer := {}
  handler : State
  issued : Nat := 0
  opened : List SessionId := []
  calls : List HandlerCall := []

/-! ## Answers -/

/-- The response of the handler, or the one that stands in for it when it has thrown. -/
def handled : Option IpcMessage → IpcMessage
  | some response => response
  | none => { envelope := { status := .ofInt Errno.eio.number } }

/-- The header fields that `poll_once` writes into every response. -/
def stampResponse (request : Envelope) (response : IpcMessage) : IpcMessage :=
  { response with
    envelope :=
      { response.envelope with
        magic := protocolMagic
        versionMajor := protocolMajor
        versionMinor := protocolMinor
        method := request.method
        flags := responseFlag
        requestId := request.requestId } }

/-- What `poll_once` gets to hear about the response that it sends. -/
def sendResponse (request : Envelope) (response : IpcMessage) (sent : Transmitted) : Status :=
  match sendMessage (stampResponse request response) with
  | .error status => some status
  | .ok _ => sent.status

/-! ## Connections -/

variable {State Input : Type}

def IpcServer.find (server : IpcServer) (socket : FileDescriptor) : Option Connection :=
  server.connections.find? fun connection => connection.socket = socket

def closeSession (handler : IpcHandler State Input) (serving : Serving State)
    (socket : FileDescriptor) : Serving State :=
  match serving.server.find socket with
  | none => serving
  | some connection =>
      { serving with
        server :=
          { serving.server with
            connections :=
              serving.server.connections.filter fun other => other.socket ≠ socket }
        handler := handler.onDisconnect serving.handler connection.sessionId
        calls := serving.calls ++ [.onDisconnect connection.sessionId] }

/-- What `accept4` returns. -/
inductive Accepted
  | socket (socket : FileDescriptor)
  | interrupted
  | wouldBlock
  | failed (errorNumber : Errno)
  deriving DecidableEq, Repr

/-- `next_session_id_++`, past zero. -/
def followingSessionId (session : SessionId) : SessionId :=
  let next := (session + 1) % 2 ^ 64
  if next = 0 then 1 else next

/-- The body of the accept loop for a new socket. -/
def admitSocket (serving : Serving State) (socket : FileDescriptor) : Serving State :=
  let session := serving.server.nextSessionId
  let server := { serving.server with nextSessionId := followingSessionId session }
  let issued := serving.issued + 1
  match server.find socket with
  -- `emplace` keeps an existing entry, and the new socket is closed again.
  | some _ => { serving with server, issued }
  | none =>
      { serving with
        server := { server with connections := server.connections ++ [⟨socket, session⟩] }
        issued
        opened := serving.opened ++ [session] }

/-- `accept_ready_connections`, with the answers of `accept4` in turn; one more call than
there are answers would block. -/
def acceptReadyConnections (serving : Serving State) :
    List Accepted → Status × Serving State
  | [] => (none, serving)
  | .socket socket :: rest => acceptReadyConnections (admitSocket serving socket) rest
  | .interrupted :: rest => acceptReadyConnections serving rest
  | .wouldBlock :: _ => (none, serving)
  | .failed errorNumber :: _ => (some errorNumber, serving)

/-! ## Polling -/

/-- What `poll` reports about one connection, and what the calls made for it answer. -/
structure Readiness (Input : Type) where
  /-- `POLLERR` or `POLLNVAL`. -/
  failed : Bool
  readable : Bool
  hungUp : Bool
  received : Received
  handlerInput : Input
  /-- The answer of `sendmsg`. -/
  sent : Transmitted

/-- Receive one message, have it handled and answer it; the flag tells whether the
connection is to be closed. -/
def serve (handler : IpcHandler State Input) (serving : Serving State)
    (connection : Connection) (readiness : Readiness Input) : Bool × Serving State :=
  match receiveMessage readiness.received with
  | .ok .eof => (true, serving)
  | .ok (.error errorNumber) => (errorNumber ≠ .eagain, serving)
  | .ok (.message request) =>
      let (response, state) :=
        handler.handle serving.handler connection.sessionId request readiness.handlerInput
      (sendResponse request.envelope (handled response) readiness.sent ≠ none,
        { serving with
          handler := state
          calls := serving.calls ++ [.handle connection.sessionId request] })
  -- The receiver never leaves its buffer.
  | .error _ => (true, serving)

/-- The body of the loop of `poll_once` over the connections. -/
def visit (handler : IpcHandler State Input) (serving : Serving State)
    (socket : FileDescriptor) (readiness : Readiness Input) : Serving State :=
  match serving.server.find socket with
  | none => serving
  | some connection =>
      let (broken, served) :=
        if readiness.readable then serve handler serving connection readiness
        else (false, serving)
      if readiness.failed ∨ broken ∨ readiness.hungUp then
        closeSession handler served socket
      else
        served

/-- What `poll` answers. -/
inductive Polled (Input : Type)
  | failed (errorNumber : Errno)
  | interrupted
  | timeout
  | ready (listener : Bool) (accepts : List Accepted)
      (readiness : FileDescriptor → Readiness Input)

def pollOnce (handler : IpcHandler State Input) (serving : Serving State) :
    Polled Input → Status × Serving State
  | polled =>
      if serving.server.listening = false then
        (some (.other 107), serving)
      else
        let descriptors := serving.server.connections.map (·.socket)
        match polled with
        | .failed errorNumber => (some errorNumber, serving)
        | .interrupted => (none, serving)
        | .timeout => (none, serving)
        | .ready listener accepts readiness =>
            let (status, admitted) :=
              if listener then acceptReadyConnections serving accepts else (none, serving)
            match status with
            | some status => (some status, admitted)
            | none =>
                (none, descriptors.foldl
                  (fun serving socket => visit handler serving socket (readiness socket))
                  admitted)

/-! ## Starting and closing -/

/-- `start`, with the outcome of its system calls. -/
def start (serving : Serving State) (outcome : Status) : Status × Serving State :=
  if serving.server.listening then
    (some (.other 114), serving)
  else
    match outcome with
    | some status => (some status, serving)
    | none =>
        (none,
          { serving with
            server := { serving.server with listening := true, nextSessionId := 1 }
            issued := 0
            opened := []
            calls := [] })

/-- The loop of `close`. Each round removes a connection, so that there are no more rounds
than connections. -/
def closeSessions (handler : IpcHandler State Input) :
    Nat → Serving State → Serving State
  | 0, serving => serving
  | rounds + 1, serving =>
      match serving.server.connections with
      | [] => serving
      | connection :: _ =>
          closeSessions handler rounds (closeSession handler serving connection.socket)

def close (handler : IpcHandler State Input) (serving : Serving State) : Serving State :=
  let closed := closeSessions handler serving.server.connections.length serving
  { closed with server := { closed.server with listening := false } }

end Ugdr.Ipc
