import Ugdr.Control.ControlIpc
import Ugdr.Control.Isolation
import Ugdr.Control.WireFormat
import Ugdr.Ipc.Sessions

/-! # The daemon and its sessions

The services behind the server: every live object belongs to the session of an open
connection, whatever the connections do.
-/

namespace Ugdr.Control

open Ipc GenerationRegistry

variable {serving : Serving QpService} {catalog : List DeviceDescriptor}

/-- The owners of all live objects are among the sessions. -/
structure QpService.OwnedBy (service : QpService) (sessions : List SessionId) : Prop where
  contexts : ∀ context ∈ service.contexts.entries, context.owner ∈ sessions
  pds : ∀ pd ∈ service.pds.entries, pd.owner ∈ sessions
  mrs : ∀ mr ∈ service.mrs.entries, mr.owner ∈ sessions
  cqs : ∀ cq ∈ service.cqs.entries, cq.owner ∈ sessions
  qps : ∀ qp ∈ service.qps.entries, qp.owner ∈ sessions

namespace QpService

variable {service after : QpService} {session : SessionId} {sessions remaining : List SessionId}

theorem OwnedBy.mono (owned : service.OwnedBy sessions)
    (subset : ∀ session ∈ sessions, session ∈ remaining) : service.OwnedBy remaining :=
  ⟨fun context member => subset _ (owned.contexts context member),
    fun pd member => subset _ (owned.pds pd member),
    fun mr member => subset _ (owned.mrs mr member),
    fun cq member => subset _ (owned.cqs cq member),
    fun qp member => subset _ (owned.qps qp member)⟩

/-- What leaves the other sessions alone creates nothing for them. -/
theorem OwnedBy.of_untouched (owned : service.OwnedBy sessions)
    (untouched : ∀ other, other ≠ session → Untouched other service after)
    (kept : ∀ other ∈ sessions, other ≠ session → other ∈ remaining)
    (own : ∀ other, other = session → other ∈ remaining ∨ Cleared session after) :
    after.OwnedBy remaining := by
  have owner : ∀ {Record : Type} {before after : List (Entry Record)},
      (∀ other, other ≠ session → (heldBy other after).Perm (heldBy other before)) →
      (∀ entry ∈ before, entry.owner ∈ sessions) →
      (session ∈ remaining ∨ ∀ entry ∈ after, entry.owner ≠ session) →
      ∀ entry ∈ after, entry.owner ∈ remaining := by
    intro Record before after same owned own entry member
    by_cases mine : entry.owner = session
    · rcases own with own | own
      · rwa [mine]
      · exact absurd mine (own entry member)
    · have held := (same entry.owner mine).mem_iff.mp (mem_heldBy.mpr ⟨member, rfl⟩)
      exact kept _ (owned entry (mem_heldBy.mp held).1) mine
  have own := own session rfl
  exact
    ⟨owner (fun other different => (untouched other different).contexts) owned.contexts
        (own.imp_right Cleared.contexts),
      owner (fun other different => (untouched other different).pds) owned.pds
        (own.imp_right Cleared.pds),
      owner (fun other different => (untouched other different).mrs) owned.mrs
        (own.imp_right Cleared.mrs),
      owner (fun other different => (untouched other different).cqs) owned.cqs
        (own.imp_right Cleared.cqs),
      owner (fun other different => (untouched other different).qps) owned.qps
        (own.imp_right Cleared.qps)⟩

end QpService

/-! ## The handler -/

/-- The handler passes a request on to the service or leaves it alone. -/
theorem handle_service (service : QpService) (session : SessionId) (request : IpcMessage)
    (input : HandlerInput) :
    (ControlIpcHandler.handle service session request input).2 = service ∨
      ∃ decoded, (ControlIpcHandler.handle service session request input).2 =
        (service.handle session decoded input.environment).2 := by
  unfold ControlIpcHandler.handle
  split
  · exact .inl rfl
  · exact .inl rfl
  · exact .inr ⟨_, rfl⟩

theorem controlIpcHandler_valid {service : QpService} (valid : service.Valid)
    (session : SessionId) (request : IpcMessage) (input : HandlerInput) :
    (ControlIpcHandler.handle service session request input).2.Valid := by
  rcases handle_service service session request input with same | ⟨decoded, same⟩
  · rw [same]
    exact valid
  · rw [same]
    exact QpService.handle_valid valid

theorem controlIpcHandler_untouched {service : QpService} (valid : service.Valid)
    {session other : SessionId} (request : IpcMessage) (input : HandlerInput)
    (different : other ≠ session) :
    QpService.Untouched other service
      (ControlIpcHandler.handle service session request input).2 := by
  rcases handle_service service session request input with same | ⟨decoded, same⟩
  · rw [same]
    exact .refl other service
  · rw [same]
    exact QpService.handle_untouched valid decoded input.environment different

/-! ## Runs of the daemon -/

/-- The state of the services along a run of the server. -/
structure Attended (serving : Serving QpService) : Prop where
  valid : serving.handler.Valid
  owned : serving.handler.OwnedBy serving.server.sessions

theorem attended_initial (catalog : List DeviceDescriptor) :
    Attended { handler := QpService.create catalog } :=
  ⟨QpService.create_valid catalog, nofun, nofun, nofun, nofun, nofun⟩

theorem Attended.serve (attended : Attended serving) {connection : Connection}
    (connected : connection ∈ serving.server.connections)
    (readiness : Readiness HandlerInput) :
    Attended (Ipc.serve controlIpcHandler serving connection readiness).2 := by
  unfold Ipc.serve
  split
  · exact attended
  · exact attended
  · have member : connection.sessionId ∈ serving.server.sessions :=
      List.mem_map_of_mem connected
    refine ⟨controlIpcHandler_valid attended.valid _ _ _, attended.owned.of_untouched
      (fun other different => controlIpcHandler_untouched attended.valid _ _ different)
      (fun _ member _ => member) fun _ same => .inl ?_⟩
    rwa [same]
  · exact attended

theorem Attended.closeSession (attended : Attended serving) (orderly : Orderly serving)
    (socket : FileDescriptor) :
    Attended (Ipc.closeSession controlIpcHandler serving socket) := by
  unfold Ipc.closeSession
  split
  · exact attended
  · rename_i connection found
    have connected : connection ∈ serving.server.connections := List.mem_of_find?_eq_some found
    have here : connection.socket = socket := by
      have here := List.find?_some found
      exact of_decide_eq_true here
    subst here
    have sessions := orderly.mem_sessions_filter connected
    refine ⟨QpService.onDisconnect_valid attended.valid _, attended.owned.of_untouched
      (fun other different => QpService.onDisconnect_untouched attended.valid different)
      (fun other member different => (sessions other).mpr ⟨member, different⟩)
      fun _ _ => .inr (QpService.onDisconnect_cleared attended.valid _)⟩

theorem Attended.move {after : Serving QpService} (attended : Attended serving)
    (orderly : Orderly serving) (move : Move controlIpcHandler serving after) :
    Attended after := by
  cases move with
  | start outcome =>
      unfold Ipc.start
      split
      · exact attended
      · cases outcome with
        | none => exact ⟨attended.valid, attended.owned⟩
        | some status => exact attended
  | admitSocket socket listening =>
      unfold Ipc.admitSocket
      dsimp only
      split
      · exact ⟨attended.valid, attended.owned⟩
      · refine ⟨attended.valid, attended.owned.mono fun session member => ?_⟩
        rw [IpcServer.sessions, List.map_append]
        exact List.mem_append_left _ member
  | serve connection readiness connected => exact attended.serve connected readiness
  | closeSession socket => exact attended.closeSession orderly socket
  | stop closed => exact ⟨attended.valid, attended.owned⟩
  | reorder connections same =>
      exact ⟨attended.valid, attended.owned.mono fun session member =>
        (same.map Connection.sessionId).mem_iff.mpr member⟩

theorem attended_of_reachable
    (reachable : Reachable controlIpcHandler (QpService.create catalog) serving) :
    Attended serving := by
  induction reachable with
  | initial => exact attended_initial catalog
  | move reachable move _ attended => exact attended.move reachable.orderly move

/-! ## The contract -/

structure SessionContract (serving : Serving QpService) : Prop where
  distinct : serving.opened.Nodup
  nonzero : 0 ∉ serving.opened
  heard : ∀ session, Heard serving session
  handleIsolated : ∀ session request input other, other ≠ session →
    QpService.Untouched other serving.handler
      (ControlIpcHandler.handle serving.handler session request input).2
  disconnectIsolated : ∀ session other, other ≠ session →
    QpService.Untouched other serving.handler (serving.handler.onDisconnect session)
  cleared : ∀ session, QpService.Cleared session (serving.handler.onDisconnect session)
  owned : serving.handler.OwnedBy serving.server.sessions
  disconnectTwice : ∀ session,
    (serving.handler.onDisconnect session).onDisconnect session =
      serving.handler.onDisconnect session
  closed : (close controlIpcHandler serving).server.connections = []

/-- At every moment of every run, the sessions are kept apart and nothing outlives its
session. The operations of the server lead from such a moment to such a moment. -/
theorem sessions_isolated
    (reachable : Reachable controlIpcHandler (QpService.create catalog) serving) :
    SessionContract serving ∧
      (∀ polled, (pollOnce controlIpcHandler serving polled).2.issued < 2 ^ 64 →
        Reachable controlIpcHandler (QpService.create catalog)
          (pollOnce controlIpcHandler serving polled).2) ∧
      Reachable controlIpcHandler (QpService.create catalog)
        (close controlIpcHandler serving) := by
  have orderly := reachable.orderly
  have attended := attended_of_reachable reachable
  have cleared := QpService.onDisconnect_cleared attended.valid
  refine ⟨?_, fun polled bounded => reachable.pollOnce polled bounded, reachable.close⟩
  exact
    { distinct := orderly.distinct
      nonzero := fun member => (orderly.issued 0 member).1 rfl
      heard := orderly.heard
      handleIsolated := fun session request input other different =>
        controlIpcHandler_untouched attended.valid request input different
      disconnectIsolated := fun session other different =>
        QpService.onDisconnect_untouched attended.valid different
      cleared := cleared
      owned := attended.owned
      disconnectTwice := fun session => QpService.onDisconnect_of_cleared
        (QpService.onDisconnect_valid attended.valid session) (cleared session)
      closed := connections_close controlIpcHandler serving }

/-- A request to create a context, and its arrival. -/
def createContext : IpcMessage :=
  requestMessage { method := 2, objectIdentity := 1 } []

def arrival (received : Received) : Readiness HandlerInput where
  failed := false
  readable := true
  hungUp := false
  received
  handlerInput := ⟨Loopback.host, fun _ => 3⟩
  sent := .whole

def contextCreated (serving : Serving QpService) (connection : Connection) : Serving QpService :=
  { serving with
    handler := (ControlIpcHandler.handle serving.handler connection.sessionId
      (completed createContext) ⟨Loopback.host, fun _ => 3⟩).2
    calls := serving.calls ++ [.handle connection.sessionId (completed createContext)] }

theorem exists_createContext : ∃ received, ∀ serving connection,
    (serve controlIpcHandler serving connection (arrival received)).2 =
      contextCreated serving connection := by
  obtain ⟨received, accepted⟩ := exists_received createContext
    ⟨by decide, by decide, nofun⟩ ⟨rfl, rfl, by decide, by decide⟩
  refine ⟨received, fun serving connection => ?_⟩
  have arrived : receiveMessage (arrival received).received =
      .ok (.message (completed createContext)) := accepted
  rw [serve, arrived]
  rfl

/-- A server with two connections, which have both created a context. -/
def twoContexts : Serving QpService :=
  contextCreated (contextCreated
    (admitSocket (admitSocket (start { handler := QpService.create [⟨1, []⟩] } none).2 4) 5)
      ⟨4, 1⟩) ⟨5, 2⟩

/-- The first of them hangs up. -/
def afterHangUp : Serving QpService :=
  closeSession controlIpcHandler twoContexts 4

theorem sessions_isolated_hangUp :
    twoContexts.handler.contexts.entries.map Entry.owner = [1, 2] ∧
      afterHangUp.opened = [1, 2] ∧ afterHangUp.server.sessions = [2] ∧
      afterHangUp.calls = [.handle 1 (completed createContext),
        .handle 2 (completed createContext), .onDisconnect 1] ∧
      afterHangUp.handler.contexts.entries.map Entry.owner = [2] ∧
      SessionContract afterHangUp := by
  obtain ⟨received, served⟩ := exists_createContext
  have idle : Reachable controlIpcHandler (QpService.create [⟨1, []⟩])
      { handler := QpService.create [⟨1, []⟩] } := .initial
  have started := idle.move (.start none) (by decide)
  have first := started.move (.admitSocket 4 rfl) (by decide)
  have second := first.move (.admitSocket 5 rfl) (by decide)
  have one := second.move (.serve ⟨4, 1⟩ (arrival received) (by decide)) (by
    rw [served]
    decide)
  rw [served] at one
  have both := one.move (.serve ⟨5, 2⟩ (arrival received) (by decide)) (by
    rw [served]
    decide)
  rw [served] at both
  exact ⟨by decide +kernel, rfl, rfl, rfl, by decide +kernel,
    (sessions_isolated (both.closeSession 4)).1⟩

end Ugdr.Control
