import Ugdr.Ipc.Server
import Mathlib.Data.List.Nodup

/-! # Sessions

Whatever the sockets do, the handler hears of a session in one order: the requests that
arrive while the connection is open, then once that it is over. The numbers of the sessions
are not used twice before the server is closed.
-/

namespace Ugdr.Ipc

variable {State Input : Type} {handler : IpcHandler State Input} {serving : Serving State}

/-- The steps of which the operations of the server are made. The order of the connections
may change at any time, as the source's map does not promise one. -/
inductive Move (handler : IpcHandler State Input) (serving : Serving State) :
    Serving State → Prop
  | start (outcome : Status) : Move handler serving (start serving outcome).2
  | admitSocket (socket : FileDescriptor) (listening : serving.server.listening = true) :
      Move handler serving (admitSocket serving socket)
  | serve (connection : Connection) (readiness : Readiness Input)
      (connected : connection ∈ serving.server.connections) :
      Move handler serving (serve handler serving connection readiness).2
  | closeSession (socket : FileDescriptor) :
      Move handler serving (closeSession handler serving socket)
  | stop (closed : serving.server.connections = []) :
      Move handler serving { serving with server := { serving.server with listening := false } }
  | reorder (connections : List Connection)
      (same : connections.Perm serving.server.connections) :
      Move handler serving { serving with server := { serving.server with connections } }

/-- The states of a server that gives away fewer than `2 ^ 64` session numbers between being
started and being closed. -/
inductive Reachable (handler : IpcHandler State Input) (initial : State) :
    Serving State → Prop
  | initial : Reachable handler initial { handler := initial }
  | move {serving after : Serving State} (reachable : Reachable handler initial serving)
      (move : Move handler serving after) (bounded : after.issued < 2 ^ 64) :
      Reachable handler initial after

/-! ## What the handler hears -/

def HandlerCall.session : HandlerCall → SessionId
  | handle session _ => session
  | onDisconnect session => session

/-- The calls about one session. -/
def callsOf (session : SessionId) (calls : List HandlerCall) : List HandlerCall :=
  calls.filter fun call => call.session = session

theorem callsOf_append (session : SessionId) (calls : List HandlerCall) (call : HandlerCall) :
    callsOf session (calls ++ [call]) =
      callsOf session calls ++ if call.session = session then [call] else [] := by
  rw [callsOf, callsOf, List.filter_append]
  by_cases same : call.session = session <;> simp [same]

/-- The sessions of the open connections. -/
def IpcServer.sessions (server : IpcServer) : List SessionId :=
  server.connections.map (·.sessionId)

/-- The calls about a session: none before it is opened, requests while it is open, and then
the end of the session as the last one. -/
structure Heard (serving : Serving State) (session : SessionId) : Prop where
  unopened : session ∉ serving.opened → callsOf session serving.calls = []
  connected : session ∈ serving.server.sessions →
    ∃ requests : List IpcMessage,
      callsOf session serving.calls = requests.map (.handle session)
  ended : session ∈ serving.opened → session ∉ serving.server.sessions →
    ∃ requests : List IpcMessage, callsOf session serving.calls =
      requests.map (.handle session) ++ [.onDisconnect session]

structure Orderly (serving : Serving State) : Prop where
  stopped : serving.server.listening = false → serving.server.connections = []
  sockets : (serving.server.connections.map (·.socket)).Nodup
  sessions : serving.server.sessions.Nodup
  nextSessionId : serving.server.nextSessionId =
    if serving.issued + 1 = 2 ^ 64 then 1 else serving.issued + 1
  issued : ∀ session : Nat, session ∈ serving.opened → session ≠ 0 ∧ session ≤ serving.issued
  distinct : serving.opened.Nodup
  opened : ∀ session ∈ serving.server.sessions, session ∈ serving.opened
  heard : ∀ session, Heard serving session

theorem orderly_initial (state : State) : Orderly { handler := state } := by
  refine ⟨fun _ => rfl, List.nodup_nil, List.nodup_nil, rfl, nofun, List.nodup_nil, nofun, ?_⟩
  intro session
  exact ⟨fun _ => rfl, nofun, nofun⟩

theorem issued_admitSocket (serving : Serving State) (socket : FileDescriptor) :
    (admitSocket serving socket).issued = serving.issued + 1 := by
  unfold admitSocket
  dsimp only
  split <;> rfl

namespace Orderly

variable (orderly : Orderly serving)
include orderly

theorem start (outcome : Status) : Orderly (Ipc.start serving outcome).2 := by
  unfold Ipc.start
  split
  · exact orderly
  · rename_i idle
    have empty := orderly.stopped (Bool.eq_false_iff.mpr idle)
    cases outcome with
    | some status => exact orderly
    | none =>
        have none : serving.server.sessions = [] := by rw [IpcServer.sessions, empty]; rfl
        refine
          { stopped := nofun
            sockets := orderly.sockets
            sessions := orderly.sessions
            nextSessionId := rfl
            issued := nofun
            distinct := List.nodup_nil
            opened := ?opened
            heard := ?heard }
        case opened =>
          intro session member
          have member : session ∈ serving.server.sessions := member
          rw [none] at member
          cases member
        case heard =>
          intro session
          refine ⟨fun _ => rfl, fun member => ?_, nofun⟩
          have member : session ∈ serving.server.sessions := member
          rw [none] at member
          cases member

theorem stop (closed : serving.server.connections = []) :
    Orderly { serving with server := { serving.server with listening := false } } :=
  { orderly with
    stopped := fun _ => closed
    heard := fun session => { orderly.heard session with } }

theorem reorder {connections : List Connection}
    (same : connections.Perm serving.server.connections) :
    Orderly { serving with server := { serving.server with connections } } := by
  have sessions : ∀ session, session ∈ connections.map (·.sessionId) ↔
      session ∈ serving.server.sessions := fun session => (same.map _).mem_iff
  refine
    { orderly with
      stopped := fun idle => ?stopped
      sockets := (same.map _).nodup_iff.mpr orderly.sockets
      sessions := (same.map _).nodup_iff.mpr orderly.sessions
      opened := fun session member => orderly.opened session ((sessions session).mp member)
      heard := fun session => ?heard }
  case stopped =>
    have empty := orderly.stopped idle
    rw [empty] at same
    exact same.eq_nil
  case heard =>
    have heard := orderly.heard session
    exact ⟨heard.unopened, fun member => heard.connected ((sessions session).mp member),
      fun opened closed => heard.ended opened fun member => closed ((sessions session).mpr member)⟩

theorem admitSocket (socket : FileDescriptor) (listening : serving.server.listening = true)
    (bounded : serving.issued + 1 < 2 ^ 64) : Orderly (Ipc.admitSocket serving socket) := by
  have session : serving.server.nextSessionId = serving.issued + 1 := by
    rw [orderly.nextSessionId, if_neg bounded.ne]
  have following : followingSessionId (serving.issued + 1) =
      if serving.issued + 1 + 1 = 2 ^ 64 then 1 else serving.issued + 1 + 1 := by
    by_cases last : serving.issued + 1 + 1 = 2 ^ 64
    · rw [followingSessionId, if_pos last, last]
      rfl
    · rw [followingSessionId, if_neg last, Nat.mod_eq_of_lt (by omega)]
      exact if_neg (Nat.succ_ne_zero _)
  have issued : ∀ other : Nat, other ∈ serving.opened →
      other ≠ 0 ∧ other ≤ serving.issued + 1 :=
    fun other member => ⟨(orderly.issued other member).1, by
      have bound := (orderly.issued other member).2
      omega⟩
  have fresh : serving.issued + 1 ∉ serving.opened := by
    intro member
    have bound := (orderly.issued _ member).2
    omega
  unfold Ipc.admitSocket
  dsimp only
  rw [session]
  split
  · exact
      { orderly with
        nextSessionId := following
        issued := issued
        heard := fun other => { orderly.heard other with } }
  · rename_i unused
    refine
      { stopped := ?stopped
        sockets := ?sockets
        sessions := ?sessions
        nextSessionId := following
        issued := ?issued
        distinct := ?distinct
        opened := ?opened
        heard := ?heard }
    case stopped =>
      intro idle
      have idle : serving.server.listening = false := idle
      rw [listening] at idle
      cases idle
    case sockets =>
      rw [List.map_append, List.nodup_append_comm]
      refine List.nodup_cons.mpr ⟨?_, orderly.sockets⟩
      intro member
      obtain ⟨connection, member, same⟩ := List.mem_map.mp member
      have absent := List.find?_eq_none.mp unused connection member
      exact absent (decide_eq_true same)
    case sessions =>
      rw [IpcServer.sessions, List.map_append, List.nodup_append_comm]
      refine List.nodup_cons.mpr ⟨?_, orderly.sessions⟩
      exact fun member => fresh (orderly.opened _ member)
    case issued =>
      intro other member
      rcases List.mem_append.mp member with member | member
      · exact issued other member
      · rw [List.mem_singleton.mp member]
        exact ⟨by omega, Nat.le_refl _⟩
    case distinct =>
      rw [List.nodup_append_comm]
      exact List.nodup_cons.mpr ⟨fresh, orderly.distinct⟩
    case opened =>
      intro other member
      rw [IpcServer.sessions, List.map_append] at member
      rcases List.mem_append.mp member with member | member
      · exact List.mem_append_left _ (orderly.opened other member)
      · exact List.mem_append_right _ member
    case heard =>
      intro other
      have heard := orderly.heard other
      have sessions : ∀ {session}, session ∈ (serving.server.connections ++
          [Connection.mk socket (serving.issued + 1)]).map Connection.sessionId ↔
            session ∈ serving.server.sessions ∨ session = serving.issued + 1 := by
        intro session
        rw [List.map_append, List.mem_append, IpcServer.sessions]
        exact or_congr_right List.mem_singleton
      refine ⟨fun unopened => ?_, fun connected => ?_, fun opened closed => ?_⟩
      · exact heard.unopened fun member => unopened (List.mem_append_left _ member)
      · rcases sessions.mp connected with connected | rfl
        · exact heard.connected connected
        · exact ⟨[], heard.unopened fresh⟩
      · have closed := mt sessions.mpr closed
        rw [not_or] at closed
        rcases List.mem_append.mp opened with opened | opened
        · exact heard.ended opened closed.1
        · exact absurd (List.mem_singleton.mp opened) closed.2

/-- A request of an open session. -/
theorem handled {session : SessionId} (connected : session ∈ serving.server.sessions)
    (request : IpcMessage) (state : State) :
    Orderly { serving with
      handler := state
      calls := serving.calls ++ [.handle session request] } := by
  refine { orderly with heard := fun other => ?_ }
  have heard := orderly.heard other
  by_cases same : session = other
  · subst same
    have calls := callsOf_append session serving.calls (.handle session request)
    rw [if_pos (show (HandlerCall.handle session request).session = session from rfl)] at calls
    refine ⟨fun unopened => absurd (orderly.opened _ connected) unopened, fun _ => ?_,
      fun _ closed => absurd connected closed⟩
    obtain ⟨requests, heard⟩ := heard.connected connected
    refine ⟨requests ++ [request], ?_⟩
    rw [calls, heard, List.map_append]
    rfl
  · have calls := callsOf_append other serving.calls (.handle session request)
    rw [if_neg (show (HandlerCall.handle session request).session ≠ other from same),
      List.append_nil] at calls
    refine ⟨fun unopened => ?_, fun connected => ?_, fun opened closed => ?_⟩
    · exact calls.trans (heard.unopened unopened)
    · obtain ⟨requests, heard⟩ := heard.connected connected
      exact ⟨requests, calls.trans heard⟩
    · obtain ⟨requests, heard⟩ := heard.ended opened closed
      exact ⟨requests, calls.trans heard⟩

theorem serve {connection : Connection} (connected : connection ∈ serving.server.connections)
    (readiness : Readiness Input) :
    Orderly (Ipc.serve handler serving connection readiness).2 := by
  unfold Ipc.serve
  split
  · exact orderly
  · exact orderly
  · exact orderly.handled (List.mem_map_of_mem connected) _ _
  · exact orderly

/-- Closing a socket removes the session of its connection and no other. -/
theorem mem_sessions_filter {connection : Connection}
    (connected : connection ∈ serving.server.connections) (session : SessionId) :
    session ∈ (serving.server.connections.filter fun other =>
        other.socket ≠ connection.socket).map (·.sessionId) ↔
      session ∈ serving.server.sessions ∧ session ≠ connection.sessionId := by
  constructor
  · intro member
    obtain ⟨other, kept, rfl⟩ := List.mem_map.mp member
    obtain ⟨inside, different⟩ := List.mem_filter.mp kept
    refine ⟨List.mem_map_of_mem inside, fun same => ?_⟩
    have same := List.inj_on_of_nodup_map orderly.sessions inside connected same
    exact of_decide_eq_true different (congrArg Connection.socket same)
  · rintro ⟨member, different⟩
    obtain ⟨other, inside, rfl⟩ := List.mem_map.mp member
    refine List.mem_map.mpr ⟨other, List.mem_filter.mpr ⟨inside, decide_eq_true ?_⟩, rfl⟩
    intro same
    have same := List.inj_on_of_nodup_map orderly.sockets inside connected same
    exact different (congrArg Connection.sessionId same)

theorem closeSession (socket : FileDescriptor) :
    Orderly (Ipc.closeSession handler serving socket) := by
  unfold Ipc.closeSession
  split
  · exact orderly
  · rename_i connection found
    have connected : connection ∈ serving.server.connections := List.mem_of_find?_eq_some found
    have here : connection.socket = socket := by
      have here := List.find?_some found
      exact of_decide_eq_true here
    subst here
    have sessions := orderly.mem_sessions_filter connected
    refine
      { orderly with
        stopped := ?stopped
        sockets := (List.filter_sublist.map _).nodup orderly.sockets
        sessions := (List.filter_sublist.map _).nodup orderly.sessions
        opened := fun session member => orderly.opened session ((sessions session).mp member).1
        heard := fun other => ?heard }
    case stopped =>
      intro idle
      have empty := orderly.stopped idle
      rw [empty] at connected
      cases connected
    case heard =>
      have heard := orderly.heard other
      have member : connection.sessionId ∈ serving.server.sessions :=
        List.mem_map_of_mem connected
      by_cases same : connection.sessionId = other
      · subst same
        have calls := callsOf_append connection.sessionId serving.calls
          (.onDisconnect connection.sessionId)
        rw [if_pos (show (HandlerCall.onDisconnect connection.sessionId).session =
          connection.sessionId from rfl)] at calls
        refine ⟨fun unopened => absurd (orderly.opened _ member) unopened,
          fun connected => absurd rfl ((sessions _).mp connected).2, fun _ _ => ?_⟩
        obtain ⟨requests, heard⟩ := heard.connected member
        exact ⟨requests, by rw [calls, heard]⟩
      · have calls := callsOf_append other serving.calls (.onDisconnect connection.sessionId)
        rw [if_neg (show (HandlerCall.onDisconnect connection.sessionId).session ≠ other
          from same), List.append_nil] at calls
        refine ⟨fun unopened => ?_, fun connected => ?_, fun opened closed => ?_⟩
        · exact calls.trans (heard.unopened unopened)
        · obtain ⟨requests, heard⟩ := heard.connected ((sessions other).mp connected).1
          exact ⟨requests, calls.trans heard⟩
        · obtain ⟨requests, heard⟩ := heard.ended opened fun connected =>
            closed ((sessions other).mpr ⟨connected, Ne.symm same⟩)
          exact ⟨requests, calls.trans heard⟩

theorem move {after : Serving State} (move : Move handler serving after)
    (bounded : after.issued < 2 ^ 64) : Orderly after := by
  cases move with
  | start outcome => exact orderly.start outcome
  | admitSocket socket listening =>
      refine orderly.admitSocket socket listening ?_
      rwa [issued_admitSocket] at bounded
  | serve connection readiness connected => exact orderly.serve connected readiness
  | closeSession socket => exact orderly.closeSession socket
  | stop closed => exact orderly.stop closed
  | reorder connections same => exact orderly.reorder same

end Orderly

theorem Reachable.orderly {initial : State} (reachable : Reachable handler initial serving) :
    Orderly serving := by
  induction reachable with
  | initial => exact orderly_initial initial
  | move _ move bounded orderly => exact orderly.move move bounded

/-! ## The operations of the server -/

theorem listening_admitSocket (serving : Serving State) (socket : FileDescriptor) :
    (admitSocket serving socket).server.listening = serving.server.listening := by
  unfold admitSocket
  dsimp only
  split <;> rfl

theorem issued_le_acceptReadyConnections (serving : Serving State) (accepts : List Accepted) :
    serving.issued ≤ (acceptReadyConnections serving accepts).2.issued := by
  induction accepts generalizing serving with
  | nil => exact Nat.le_refl _
  | cons accepted rest induction =>
      cases accepted with
      | socket socket =>
          refine Nat.le_trans ?_ (induction (admitSocket serving socket))
          rw [issued_admitSocket]
          exact Nat.le_succ _
      | interrupted => exact induction serving
      | wouldBlock => exact Nat.le_refl _
      | failed errorNumber => exact Nat.le_refl _

theorem issued_closeSession (handler : IpcHandler State Input) (serving : Serving State)
    (socket : FileDescriptor) : (closeSession handler serving socket).issued = serving.issued := by
  unfold closeSession
  split <;> rfl

theorem issued_serve (handler : IpcHandler State Input) (serving : Serving State)
    (connection : Connection) (readiness : Readiness Input) :
    (serve handler serving connection readiness).2.issued = serving.issued := by
  unfold serve
  split <;> rfl

theorem issued_visit (handler : IpcHandler State Input) (serving : Serving State)
    (socket : FileDescriptor) (readiness : Readiness Input) :
    (visit handler serving socket readiness).issued = serving.issued := by
  unfold visit
  split
  · rfl
  · dsimp only
    split
    · split
      · rw [issued_closeSession, issued_serve]
      · exact issued_serve ..
    · split
      · exact issued_closeSession ..
      · rfl

namespace Reachable

variable {initial : State}

theorem acceptReadyConnections (reachable : Reachable handler initial serving)
    (listening : serving.server.listening = true) (accepts : List Accepted)
    (bounded : (Ipc.acceptReadyConnections serving accepts).2.issued < 2 ^ 64) :
    Reachable handler initial (Ipc.acceptReadyConnections serving accepts).2 := by
  induction accepts generalizing serving with
  | nil => exact reachable
  | cons accepted rest induction =>
      cases accepted with
      | socket socket =>
          have total := issued_le_acceptReadyConnections (Ipc.admitSocket serving socket) rest
          refine induction (reachable.move (.admitSocket socket listening) ?_) ?_ bounded
          · exact Nat.lt_of_le_of_lt total bounded
          · rwa [listening_admitSocket]
      | interrupted => exact induction reachable listening bounded
      | wouldBlock => exact reachable
      | failed errorNumber => exact reachable

theorem bounded (reachable : Reachable handler initial serving) : serving.issued < 2 ^ 64 := by
  cases reachable with
  | initial => exact Nat.two_pow_pos 64
  | move _ _ bounded => exact bounded

theorem closeSession (reachable : Reachable handler initial serving) (socket : FileDescriptor) :
    Reachable handler initial (Ipc.closeSession handler serving socket) := by
  refine reachable.move (.closeSession socket) ?_
  rw [issued_closeSession]
  exact reachable.bounded

theorem visit (reachable : Reachable handler initial serving) (socket : FileDescriptor)
    (readiness : Readiness Input) :
    Reachable handler initial (Ipc.visit handler serving socket readiness) := by
  unfold Ipc.visit
  split
  · exact reachable
  · rename_i connection found
    have served : Reachable handler initial
        (Ipc.serve handler serving connection readiness).2 := by
      refine reachable.move (.serve connection readiness (List.mem_of_find?_eq_some found)) ?_
      rw [issued_serve]
      exact reachable.bounded
    dsimp only
    split
    · split
      · exact served.closeSession socket
      · exact served
    · split
      · exact reachable.closeSession socket
      · exact reachable

theorem visits (readiness : FileDescriptor → Readiness Input)
    (reachable : serving.issued < 2 ^ 64 → Reachable handler initial serving)
    (sockets : List FileDescriptor) :
    let visited := sockets.foldl (fun serving socket =>
      Ipc.visit handler serving socket (readiness socket)) serving
    visited.issued < 2 ^ 64 → Reachable handler initial visited := by
  induction sockets generalizing serving with
  | nil => exact reachable
  | cons socket sockets induction =>
      refine induction fun bounded => ?_
      rw [issued_visit] at bounded
      exact (reachable bounded).visit socket (readiness socket)

/-- One poll leads from a reachable state to a reachable one. -/
theorem pollOnce (reachable : Reachable handler initial serving) (polled : Polled Input)
    (bounded : (Ipc.pollOnce handler serving polled).2.issued < 2 ^ 64) :
    Reachable handler initial (Ipc.pollOnce handler serving polled).2 := by
  unfold Ipc.pollOnce at bounded ⊢
  split at bounded
  · rename_i idle
    rw [if_pos idle]
    exact reachable
  · rename_i listening
    rw [if_neg listening]
    rw [Bool.not_eq_false] at listening
    cases polled with
    | failed errorNumber => exact reachable
    | interrupted => exact reachable
    | timeout => exact reachable
    | ready listener accepts readiness =>
        dsimp only at bounded ⊢
        cases listener with
        | false => exact visits readiness (fun _ => reachable) _ bounded
        | true =>
            have accepted := reachable.acceptReadyConnections listening accepts
            simp only [if_true] at bounded ⊢
            split at bounded
            · exact accepted bounded
            · exact visits readiness accepted _ bounded

theorem closeSessions (reachable : Reachable handler initial serving) (rounds : Nat) :
    Reachable handler initial (Ipc.closeSessions handler rounds serving) := by
  induction rounds generalizing serving with
  | zero => exact reachable
  | succ rounds induction =>
      unfold Ipc.closeSessions
      split
      · exact reachable
      · exact induction (reachable.closeSession _)

end Reachable

theorem length_closeSession (handler : IpcHandler State Input) {connection : Connection}
    (connected : connection ∈ serving.server.connections) :
    (closeSession handler serving connection.socket).server.connections.length <
      serving.server.connections.length := by
  unfold closeSession
  split
  · rename_i absent
    have absent := List.find?_eq_none.mp absent connection connected
    exact absurd (decide_eq_true rfl) absent
  · refine List.length_filter_lt_length_iff_exists.mpr ⟨connection, connected, ?_⟩
    exact fun different => of_decide_eq_true different rfl

/-- The loop of `close` ends without connections. -/
theorem connections_closeSessions {rounds : Nat}
    (enough : serving.server.connections.length ≤ rounds) :
    (closeSessions handler rounds serving).server.connections = [] := by
  induction rounds generalizing serving with
  | zero => exact List.length_eq_zero_iff.mp (Nat.le_zero.mp enough)
  | succ rounds induction =>
      unfold closeSessions
      split
      · assumption
      · rename_i connection rest connections
        have connected : connection ∈ serving.server.connections := by
          rw [connections]
          exact List.mem_cons_self
        have fewer := length_closeSession handler connected
        exact induction (by omega)

theorem connections_close (handler : IpcHandler State Input) (serving : Serving State) :
    (close handler serving).server.connections = [] :=
  connections_closeSessions (Nat.le_refl _)

theorem Reachable.close {initial : State} (reachable : Reachable handler initial serving) :
    Reachable handler initial (Ipc.close handler serving) := by
  have closed := reachable.closeSessions serving.server.connections.length
  exact closed.move (.stop (connections_closeSessions (Nat.le_refl _))) closed.bounded

end Ugdr.Ipc
