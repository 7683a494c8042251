import Ugdr.Control.ControlClient

/-! # What the client sends

Each function that makes a control request stays on the open connection. The requests it
sends contain the numbers it was given, and what it returns was obtained on that connection.
-/

namespace Ugdr.Control

open ControlClient

variable {World : Type} {transport : Transport World}

/-- The request contains these numbers and no others. -/
def Sent.Names (sent : Sent) : Prop :=
  match sent.identities with
  | [] => sent.request.objectIdentity = 0
  | [identity] => sent.request.objectIdentity = identity.value
  | [pd, sendCq, recvCq] =>
      sent.request.objectIdentity = pd.value ∧ ∃ attributes,
        sent.request.payload = encodeQpCreateAttributes attributes ∧
          attributes.sendCqIdentity = sendCq.value ∧ attributes.recvCqIdentity = recvCq.value
  | _ => False

/-- What requests on the open connection do to the client: they are recorded with the
numbers they were given, or others from the same connection. -/
structure Talked (identities : List Obtained) (before after : ControlClient World) : Prop where
  connections : after.connections = before.connections
  connectionEpoch : after.connectionEpoch = before.connectionEpoch
  sent : ∀ sent ∈ after.sent, sent ∈ before.sent ∨
    sent.connection = before.connections ∧ sent.Names ∧ ∀ identity ∈ sent.identities,
      identity ∈ identities ∨ identity.connection = before.connections

namespace Talked

variable {identities : List Obtained} {before middle after : ControlClient World}

theorem refl (identities : List Obtained) (client : ControlClient World) :
    Talked identities client client :=
  ⟨rfl, rfl, fun _ member => .inl member⟩

theorem close (talked : Talked identities before after) : Talked identities before after.close :=
  ⟨talked.connections, talked.connectionEpoch, talked.sent⟩

theorem trans (first : Talked identities before middle)
    (second : Talked identities middle after) : Talked identities before after := by
  refine ⟨second.connections.trans first.connections,
    second.connectionEpoch.trans first.connectionEpoch, fun sent member => ?_⟩
  rcases second.sent sent member with member | new
  · exact first.sent sent member
  · rw [first.connections] at new
    exact .inr new

end Talked

/-! ## Single requests -/

section Requests

variable {client : ControlClient World} {request : ControlRequest}
  {identities : List Obtained}

theorem call_talked (named : Sent.Names ⟨client.connections, request, identities⟩) :
    Talked identities client (client.call transport request identities).2 := by
  unfold ControlClient.call
  split
  · exact (Talked.refl identities client).close
  · generalize transport.exchange client.world request = answered
    obtain ⟨answer, world⟩ := answered
    have recorded : Talked identities client
        { client with
          world
          sent := client.sent ++ [⟨client.connections, request, identities⟩] } := by
      refine ⟨rfl, rfl, fun sent member => ?_⟩
      rcases List.mem_append.mp member with member | new
      · exact .inl member
      · rw [List.mem_singleton.mp new]
        exact .inr ⟨rfl, named, fun identity member => .inl member⟩
    cases answer with
    | error status => exact recorded.close
    | ok response =>
        dsimp only
        split
        · exact recorded.close
        · exact recorded

theorem callPlain_talked (named : Sent.Names ⟨client.connections, request, identities⟩) :
    Talked identities client (client.callPlain transport request identities).2 := by
  have talked : Talked identities client (client.call transport request identities).2 :=
    call_talked named
  unfold ControlClient.callPlain
  split
  · rename_i called
    rwa [called] at talked
  · rename_i called
    rw [called] at talked
    split
    · exact talked.close
    · exact talked

/-- A request was made, and its result, if there is one, is good. -/
structure Answered {Result : Type} (identities : List Obtained) (client : ControlClient World)
    (good : Result → Prop) (result : Except Errno Result × ControlClient World) : Prop where
  talked : Talked identities client result.2
  good : ∀ value, result.1 = .ok value → good value

theorem Answered.error {Result : Type} {good : Result → Prop} {after : ControlClient World}
    (talked : Talked identities client after) (status : Errno) :
    Answered identities client good (.error status, after) :=
  ⟨talked, fun _ answer => by cases answer⟩

theorem Answered.ok {Result : Type} {good : Result → Prop} {after : ControlClient World}
    (talked : Talked identities client after) {value : Result} (holds : good value) :
    Answered identities client good (.ok value, after) :=
  ⟨talked, fun _ answer => by cases answer; exact holds⟩

theorem Answered.any {Result : Type} {after : ControlClient World}
    (talked : Talked identities client after) (answer : Except Errno Result) :
    Answered identities client (fun _ => True) (answer, after) :=
  ⟨talked, fun _ _ => trivial⟩

/-- The result is a number of the connection. -/
def OfConnection (client : ControlClient World) (identity : Obtained) : Prop :=
  identity.connection = client.connections

theorem Talked.obtained {after : ControlClient World} (talked : Talked identities client after)
    (identity : Nat) : OfConnection client (after.obtained identity) :=
  talked.connections

theorem clientListDevices_answered :
    Answered [] client (fun _ => True) (clientListDevices transport client) := by
  have talked : Talked [] client (client.callPlain transport { method := 1 } []).2 :=
    callPlain_talked rfl
  unfold clientListDevices
  split
  · rename_i called
    rw [called] at talked
    exact .error talked _
  · rename_i called
    rw [called] at talked
    split
    · exact .error talked _
    · exact .any talked _

theorem clientCreateContext_answered (device : Obtained) :
    Answered [device] client (OfConnection client)
      (clientCreateContext transport client device) := by
  have talked : Talked [device] client (client.callPlain transport
      { method := 2, objectIdentity := device.value } [device]).2 := callPlain_talked rfl
  unfold clientCreateContext
  split
  · exact .error (.refl _ _) _
  · split
    · rename_i called
      rw [called] at talked
      exact .error talked _
    · rename_i called
      rw [called] at talked
      split
      · exact .error talked _
      · split
        · exact .error talked _
        · exact .ok talked (talked.obtained _)

theorem clientDestroyContext_talked (context : Obtained) :
    Talked [context] client (clientDestroyContext transport client context).2 := by
  have talked : Talked [context] client (client.callPlain transport
      { method := 3, objectIdentity := context.value } [context]).2 := callPlain_talked rfl
  unfold clientDestroyContext
  split
  · exact .refl _ _
  · split
    · rename_i called
      rwa [called] at talked
    · rename_i called
      rw [called] at talked
      split <;> exact talked

theorem callIdentity_answered (named : Sent.Names ⟨client.connections, request, identities⟩)
    (type : ObjectType) :
    Answered identities client (OfConnection client)
      (callIdentity transport client request identities type) := by
  have talked : Talked identities client (client.callPlain transport request identities).2 :=
    callPlain_talked named
  unfold callIdentity
  split
  · rename_i called
    rw [called] at talked
    exact .error talked _
  · rename_i called
    rw [called] at talked
    split
    · exact .error talked _
    · split
      · exact .error talked _
      · exact .ok talked (talked.obtained _)

theorem callDestroy_talked (named : Sent.Names ⟨client.connections, request, identities⟩) :
    Talked identities client (callDestroy transport client request identities).2 := by
  have talked : Talked identities client (client.callPlain transport request identities).2 :=
    callPlain_talked named
  unfold callDestroy
  split
  · rename_i called
    rwa [called] at talked
  · rename_i called
    rw [called] at talked
    split
    · exact talked
    · split <;> exact talked

theorem clientDestroy_talked (method : Nat) (identity : Obtained) :
    Talked [identity] client (clientDestroy transport client method identity).2 := by
  unfold clientDestroy
  split
  · exact .refl _ _
  · exact callDestroy_talked rfl

theorem clientCreatePd_answered (context : Obtained) :
    Answered [context] client (OfConnection client) (clientCreatePd transport client context) := by
  unfold clientCreatePd
  split
  · exact .error (.refl _ _) _
  · apply callIdentity_answered
    rfl

theorem clientRegisterMr_answered (pd : Obtained) (memory : ExportedCudaMemory)
    (access : UInt32) :
    Answered [pd] client (fun result => OfConnection client result.1)
      (clientRegisterMr transport client pd memory access) := by
  have talked : Talked [pd] client (client.callPlain transport
      { method := 6
        objectIdentity := pd.value
        length := memory.length
        access
        payload := encodeMrRegistration memory } [pd]).2 := callPlain_talked rfl
  unfold clientRegisterMr
  split
  · exact .error (.refl _ _) _
  · split
    · rename_i called
      rw [called] at talked
      exact .error talked _
    · rename_i called
      rw [called] at talked
      split
      · exact .error talked _
      · split
        · exact .error talked _
        · split
          · exact .error talked _
          · split
            · exact .error talked _
            · exact .ok talked (talked.obtained _)

/-- The object that is given up again was obtained on this connection. -/
theorem abandon_answered {good : Obtained → Prop} {after : ControlClient World}
    (talked : Talked identities client after) (method : Nat) {identity : Obtained}
    (fresh : OfConnection client identity) (status : Errno) :
    Answered identities client good (abandon transport after method identity status) := by
  refine .error (talked.trans ?_) status
  have cleanup : Talked [identity] after (clientDestroy transport after method identity).2 :=
    clientDestroy_talked method identity
  refine ⟨cleanup.connections, cleanup.connectionEpoch, fun sent member => ?_⟩
  refine (cleanup.sent sent member).imp_right fun ⟨connection, named, contained⟩ =>
    ⟨connection, named, fun other otherMember => .inr ?_⟩
  rcases contained other otherMember with own | same
  · rw [List.mem_singleton.mp own]
    exact fresh.trans talked.connections.symm
  · exact same

theorem clientCreateCq_answered (context : Obtained) (cqe : Nat)
    (mapRing : Queue.QueueDescriptor → Status) :
    Answered [context] client (OfConnection client)
      (clientCreateCq transport client context cqe mapRing) := by
  have talked : Talked [context] client (client.call transport
      { method := 8, objectIdentity := context.value, length := cqe } [context]).2 :=
    call_talked rfl
  unfold clientCreateCq
  split
  · exact .error (.refl _ _) _
  · split
    · rename_i called
      rw [called] at talked
      exact .error talked _
    · rename_i called
      rw [called] at talked
      split
      · exact .error talked _
      · dsimp only
        split
        · exact .error talked _
        · split
          · exact abandon_answered talked _ (talked.obtained _) _
          · split
            · exact abandon_answered talked _ (talked.obtained _) _
            · exact .ok talked (talked.obtained _)

theorem clientCreateQp_answered (pd sendCq recvCq : Obtained) (attributes : QpCreateAttributes)
    (send : attributes.sendCqIdentity = sendCq.value)
    (recv : attributes.recvCqIdentity = recvCq.value)
    (mapRing : Queue.QueueDescriptor → Status) :
    Answered [pd, sendCq, recvCq] client (OfConnection client)
      (clientCreateQp transport client pd sendCq recvCq attributes mapRing) := by
  have talked : Talked [pd, sendCq, recvCq] client (client.call transport
      { method := 10
        objectIdentity := pd.value
        payload := encodeQpCreateAttributes attributes } [pd, sendCq, recvCq]).2 :=
    call_talked ⟨rfl, attributes, rfl, send, recv⟩
  unfold clientCreateQp
  split
  · exact .error (.refl _ _) _
  · split
    · rename_i called
      rw [called] at talked
      exact .error talked _
    · rename_i called
      rw [called] at talked
      split
      · exact .error talked _
      · dsimp only
        split
        · exact .error talked _
        · split
          · exact abandon_answered talked _ (talked.obtained _) _
          · split
            · exact abandon_answered talked _ (talked.obtained _) _
            · split
              · exact abandon_answered talked _ (talked.obtained _) _
              · exact .ok talked (talked.obtained _)

theorem clientQueryQp_talked (qp : Obtained) (mask : UInt32) :
    Talked [qp] client (clientQueryQp transport client qp mask).2 := by
  have talked : Talked [qp] client (client.callPlain transport
      { method := 12, objectIdentity := qp.value, payload := encodeQueryPayload mask }
      [qp]).2 := callPlain_talked rfl
  unfold clientQueryQp
  split
  · exact .refl _ _
  · split
    · rename_i called
      rwa [called] at talked
    · rename_i called
      rw [called] at talked
      split
      · exact talked
      · split <;> exact talked

theorem clientModifyQp_talked (qp : Obtained) (attributes : QpAttributes) (mask : UInt32) :
    Talked [qp] client (clientModifyQp transport client qp attributes mask).2 := by
  unfold clientModifyQp
  split
  · exact .refl _ _
  · exact callDestroy_talked rfl

theorem clientQueryQpConnInfo_talked (qp : Obtained) :
    Talked [qp] client (clientQueryQpConnInfo transport client qp).2 := by
  have talked : Talked [qp] client (client.callPlain transport
      { method := 14, objectIdentity := qp.value } [qp]).2 := callPlain_talked rfl
  unfold clientQueryQpConnInfo
  split
  · exact .refl _ _
  · split
    · rename_i called
      rwa [called] at talked
    · rename_i called
      rw [called] at talked
      split
      · exact talked
      · split
        · exact talked
        · split
          · exact talked
          · split <;> exact talked

theorem clientConnectQp_talked (qp : Obtained) (remoteQpNum : Nat) (attributes : QpAttributes)
    (mask : UInt32) :
    Talked [qp] client (clientConnectQp transport client qp remoteQpNum attributes mask).2 := by
  unfold clientConnectQp
  split
  · exact .refl _ _
  · exact callDestroy_talked rfl

end Requests

end Ugdr.Control
