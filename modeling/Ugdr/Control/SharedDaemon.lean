import Ugdr.Control.Isolation
import Ugdr.Control.QpStates
import Ugdr.Control.ControlClient

/-! # A daemon that is shared

The daemon as one client finds it: other sessions make their requests at any time, a
connection can break wherever a request is, and the daemon may notice that before the
client does. What this leaves of the client's queue pairs is said for each of its requests.
-/

namespace Ugdr.Control

open GenerationRegistry QpService Wire

/-! ## The daemon -/

/-- The session is that of the connection the client made last, as long as the daemon has it
open. -/
structure Daemon where
  service : QpService
  session : Option OwnerSessionId

def QpService.Event.session : QpService.Event → OwnerSessionId
  | .request session _ _ => session
  | .disconnect session => session

namespace Daemon

/-- What happens at the daemon without the client's doing. -/
inductive Move (before : Daemon) : Daemon → Prop
  | other (event : Event) (foreign : before.session ≠ some event.session) :
      Move before { before with service := before.service.step event }
  | hangUp (session : OwnerSessionId) (opened : before.session = some session) :
      Move before ⟨before.service.onDisconnect session, none⟩

abbrev Moved : Daemon → Daemon → Prop := Relation.ReflTransGen Move

/-- The daemon after a request of the client. -/
def handled (daemon : Daemon) (session : OwnerSessionId) (request : ControlRequest)
    (environment : Environment) : Daemon :=
  ⟨(daemon.service.handle session request environment).2, some session⟩

/-- A request is lost on the way, or it is handled; then its answer arrives or is lost. -/
inductive Exchanged (request : ControlRequest) (before : Daemon) :
    Except Errno ControlResponse × Daemon → Prop
  | lost {after : Daemon} (status : Errno) (moved : Moved before after) :
      Exchanged request before (.error status, after)
  | answered {middle after : Daemon} {session : OwnerSessionId} (environment : Environment)
      (moved : Moved before middle) (opened : middle.session = some session)
      (later : Moved (middle.handled session request environment) after) :
      Exchanged request before
        (.ok (middle.service.handle session request environment).1, after)
  | unanswered {middle after : Daemon} {session : OwnerSessionId} (environment : Environment)
      (status : Errno) (moved : Moved before middle) (opened : middle.session = some session)
      (later : Moved (middle.handled session request environment) after) :
      Exchanged request before (.error status, after)

/-- A connection attempt fails, or it begins a session. The session before it, if the daemon
still has it, is one of the others from then on. -/
inductive Joined (before : Daemon) : Status × Daemon → Prop
  | failed {after : Daemon} (status : Errno) (moved : Moved before after) :
      Joined before (some status, after)
  | accepted {middle after : Daemon} (session : OwnerSessionId)
      (moved : Moved ⟨before.service, none⟩ middle)
      (later : Moved ⟨middle.service, some session⟩ after) : Joined before (none, after)

/-- The transport is a connection to such a daemon. -/
structure Faithful (transport : Transport Daemon) : Prop where
  connect : ∀ daemon, Joined daemon (transport.connect daemon)
  exchange : ∀ daemon request, Exchanged request daemon (transport.exchange daemon request)

/-! ## What remains of the queue pairs -/

structure Sound (daemon : Daemon) : Prop where
  valid : daemon.service.Valid
  staged : daemon.service.QpsStaged

/-- The session is the same, and so are its queue pairs, except for those in `touched`. -/
def Keeps (touched : List Nat) (before after : Daemon) : Prop :=
  ∀ session, after.session = some session → before.session = some session ∧
    ∀ qp ∈ before.service.qps.entries, qp.owner = session → qp.identity ∉ touched →
      qp ∈ after.service.qps.entries

variable {before middle after : Daemon} {touched : List Nat}

theorem Keeps.refl (touched : List Nat) (daemon : Daemon) : Keeps touched daemon daemon :=
  fun _ opened => ⟨opened, fun _ member _ _ => member⟩

theorem Keeps.trans (first : Keeps touched before middle) (second : Keeps touched middle after) :
    Keeps touched before after := by
  intro session opened
  obtain ⟨openedMiddle, kept⟩ := second session opened
  obtain ⟨openedBefore, keptBefore⟩ := first session openedMiddle
  exact ⟨openedBefore, fun qp member owner outside =>
    kept qp (keptBefore qp member owner outside) owner outside⟩

theorem Keeps.weaken (keeps : Keeps [] before after) (touched : List Nat) :
    Keeps touched before after := by
  intro session opened
  obtain ⟨openedBefore, kept⟩ := keeps session opened
  exact ⟨openedBefore, fun qp member owner _ => kept qp member owner List.not_mem_nil⟩

theorem Sound.step (sound : before.Sound) (event : Event) (session : Option OwnerSessionId) :
    Sound ⟨before.service.step event, session⟩ :=
  ⟨step_valid sound.valid event, run_staged sound.valid sound.staged [event]⟩

theorem Move.sound (move : Move before after) (sound : before.Sound) : after.Sound := by
  cases move with
  | other event foreign => exact sound.step event before.session
  | hangUp session opened => exact sound.step (.disconnect session) none

theorem Move.keeps (move : Move before after) (sound : before.Sound) : Keeps [] before after := by
  cases move with
  | hangUp session opened => exact nofun
  | other event foreign =>
      intro session opened
      refine ⟨opened, fun qp member owner _ => ?_⟩
      have different : session ≠ event.session := by
        rintro rfl
        exact foreign opened
      have untouched : Untouched session before.service (before.service.step event) := by
        cases event with
        | request other request environment =>
            exact handle_untouched sound.valid request environment different
        | disconnect other => exact onDisconnect_untouched sound.valid different
      have held := untouched.qps.mem_iff.mpr (mem_heldBy.mpr ⟨member, owner⟩)
      exact (mem_heldBy.mp held).1

theorem moved_sound (moved : Moved before after) (sound : before.Sound) : after.Sound := by
  induction moved with
  | refl => exact sound
  | tail _ move induction => exact move.sound induction

theorem moved_keeps (moved : Moved before after) (sound : before.Sound) :
    Keeps [] before after := by
  induction moved with
  | refl => exact .refl [] before
  | tail moved move induction =>
      exact induction.trans (move.keeps (moved_sound moved sound))

/-! ## Requests of the client at the daemon -/

/-- The methods that change or remove a queue pair that exists. -/
def changesQp (method : Nat) : Prop :=
  ControlMethod.ofCode method = some .destroyQp ∨ ControlMethod.ofCode method = some .modifyQp ∨
    ControlMethod.ofCode method = some .connectQp

instance (method : Nat) : Decidable (changesQp method) :=
  inferInstanceAs (Decidable (_ ∨ _ ∨ _))

section Requests

variable {service : QpService} {session : OwnerSessionId} {request : ControlRequest}
  {environment : Environment}

theorem handle_keeps_qp (valid : service.Valid) {qp : Entry QpRecord}
    (member : qp ∈ service.qps.entries)
    (spared : (service.handle session request environment).1.status = none →
      changesQp request.method → qp.identity ≠ request.objectIdentity) :
    qp ∈ (service.handle session request environment).2.qps.entries := by
  have outcome := handle_outcome valid session request environment
  by_cases answered : (service.handle session request environment).1.status = none
  · obtain ⟨graph, applied, same⟩ := outcome.applied answered
    refine same.qps.mem_iff.mpr ?_
    cases applied with
    | createQp attributes pd queues method available fresh =>
        exact List.mem_cons_of_mem _ member
    | destroyQp removedQp qps method removed =>
        have different := spared answered (.inl method)
        rcases List.mem_cons.mp (removed.mem_iff.mp member) with rfl | remains
        · exact absurd rfl different
        · exact remains
    | modifyQp attributes mask target updated method decoded found modified =>
        have different := spared answered (.inr (.inl method))
        exact List.mem_map.mpr ⟨qp, member, if_neg different⟩
    | connectQp remoteQpNum remoteIdentity attributes mask target remote method decoded found
        checked unbound ready indexed remoteFound accepts =>
        have different := spared answered (.inr (.inr method))
        exact List.mem_map.mpr ⟨qp, member, if_neg different⟩
    | _ => exact member
  · exact (outcome.refused answered).same.qps.mem_iff.mpr member

theorem handled_sound (sound : before.Sound) :
    (before.handled session request environment).Sound :=
  sound.step (.request session request environment) (some session)

theorem handled_keeps (sound : before.Sound) (opened : before.session = some session)
    (harmless : (before.service.handle session request environment).1.status = none →
      ¬changesQp request.method) :
    Keeps [] before (before.handled session request environment) := by
  rintro other ⟨⟩
  refine ⟨opened, fun qp member _ _ => handle_keeps_qp sound.valid member ?_⟩
  intro answered changing
  exact absurd changing (harmless answered)

theorem handled_keeps_others (sound : before.Sound) (opened : before.session = some session) :
    Keeps [request.objectIdentity] before (before.handled session request environment) := by
  rintro other ⟨⟩
  refine ⟨opened, fun qp member _ outside => handle_keeps_qp sound.valid member ?_⟩
  intro _ _ same
  exact outside (List.mem_singleton.mpr same)

/-- A queue pair is new, and in the first state. -/
theorem handle_createQp (valid : service.Valid)
    (answered : (service.handle session request environment).1.status = none)
    (method : ControlMethod.ofCode request.method = some .createQp) :
    (∃ qp, ⟨(service.handle session request environment).1.objectIdentity, session, qp⟩ ∈
        (service.handle session request environment).2.qps.entries ∧
      qp.state = qpStateReset) ∧
    ∀ qp ∈ service.qps.entries,
      qp.identity ≠ (service.handle session request environment).1.objectIdentity := by
  have outcome := handle_outcome valid session request environment
  obtain ⟨graph, applied, same⟩ := outcome.applied answered
  cases applied with
  | createQp attributes pd queues _ available fresh =>
      refine ⟨⟨_, same.qps.mem_iff.mpr List.mem_cons_self, rfl⟩, fun qp member equal => ?_⟩
      exact fresh (List.mem_map.mpr ⟨qp, member, equal⟩)
  | observed other => simp [method] at other
  | _ => simp_all

/-- A queue pair that was modified is in the state that was asked for. -/
theorem handle_modifyQp (valid : service.Valid) {attributes : QpAttributes} {mask : UInt32}
    (answered : (service.handle session request environment).1.status = none)
    (method : ControlMethod.ofCode request.method = some .modifyQp)
    (decoded : decodeModifyPayload request.payload = .ok (attributes, mask)) :
    mask &&& qpMaskState ≠ 0 ∧
      ∃ qp, ⟨request.objectIdentity, session, qp⟩ ∈
          (service.handle session request environment).2.qps.entries ∧
        qp.state = attributes.state := by
  have outcome := handle_outcome valid session request environment
  obtain ⟨graph, applied, same⟩ := outcome.applied answered
  cases applied with
  | modifyQp asked askedMask qp updated _ askedDecoded target modified =>
      cases decoded.symm.trans askedDecoded
      have member := same.qps.mem_iff.mpr (List.mem_map.mpr ⟨_, target, if_pos rfl⟩)
      unfold modifiedQp at modified
      dsimp only at modified
      split at modified
      · cases modified
      · rename_i masked
        refine ⟨fun clear => masked (.inl clear), updated, member, ?_⟩
        split at modified
        · cases modified
        · split at modified
          · cases modified
          · split at modified
            · rename_i initial
              cases modified
              exact initial.2.1.symm
            · split at modified
              · rename_i final
                cases modified
                exact final.2.1.symm
              · cases modified
  | observed other => simp [method] at other
  | _ => simp_all

theorem handle_connectQp (valid : service.Valid)
    (answered : (service.handle session request environment).1.status = none)
    (method : ControlMethod.ofCode request.method = some .connectQp) :
    ∃ qp, ⟨request.objectIdentity, session, qp⟩ ∈
        (service.handle session request environment).2.qps.entries ∧
      qp.state = qpStateRts := by
  have outcome := handle_outcome valid session request environment
  obtain ⟨graph, applied, same⟩ := outcome.applied answered
  cases applied with
  | connectQp remoteQpNum remoteIdentity attributes mask qp remote _ decoded target checked
      unbound ready indexed remoteFound accepts =>
      exact ⟨_, same.qps.mem_iff.mpr (List.mem_map.mpr ⟨_, target, if_pos rfl⟩), rfl⟩
  | observed other => simp [method] at other
  | _ => simp_all

/-- The answer to a request that changes a queue pair has nothing but the status. -/
theorem handle_bare (changing : changesQp request.method)
    (answered : (service.handle session request environment).1.status = none) :
    (service.handle session request environment).1 = responseFor request none := by
  have bare : ∃ status,
      (service.handle session request environment).1 = responseFor request status := by
    rcases changing with method | method | method
    · simp only [QpService.handle, method, handleDestroyQp]
      repeat' split
      all_goals exact ⟨_, rfl⟩
    · simp only [QpService.handle, method, handleModifyQp]
      repeat' split
      all_goals exact ⟨_, rfl⟩
    · simp only [QpService.handle, method, handleConnectQp]
      repeat' split
      all_goals exact ⟨_, rfl⟩
  obtain ⟨status, same⟩ := bare
  rw [same] at answered ⊢
  exact congrArg (responseFor request) answered

end Requests

end Daemon

end Ugdr.Control
